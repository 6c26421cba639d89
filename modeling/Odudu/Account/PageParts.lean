import Odudu.DomainTheme.PageMarkup

/-!
# The parts of the pages of an account

The renderers of `registration-html.ts`, `reset-html.ts`, `verification-html.ts` and
`required-actions-html.ts`.  The pages that say how something came out have the parts of a
notice, and differ in what they say.
-/

set_option autoImplicit false

namespace Odudu.Account.PageParts

open Texts Styles DomainTheme DomainTheme.Stylesheets

variable (tHtml : Phrases)

/-- `returnToField` -/
def returnToField (signInPath : Bool) : List PageDom := if signInPath then [input] else []

def backToSignIn (signInPath : Bool) : List PageDom :=
  if signInPath then Stylesheets.links [tHtml "link.backToSignIn"] else []

def renderRegistrationForm (problems rules : List (List Inline)) (signInPath : Bool) : Parts :=
  [slotOf "intro" (intro (tHtml "registration.title")), slotOf "error" (problemSummary problems),
    slotOf "form.open" (returnToField signInPath),
    slotOf "fields" ([label (tHtml "registration.username"), label (tHtml "registration.email")] ++
      passwordField tHtml "registration.password" rules ++
      [label (tHtml "registration.passwordConfirm"), script]),
    slotOf "submit" [button [] (tHtml "registration.submit")], slotOf "form.close" [],
    slotOf "links" (backToSignIn tHtml signInPath)]

def renderResetRequestForm (problems : List (List Inline)) (signInPath : Bool) : Parts :=
  [slotOf "intro" (intro (tHtml "reset.request.title")), slotOf "error" (problemSummary problems),
    slotOf "form.open" (returnToField signInPath),
    slotOf "fields" [label (tHtml "reset.request.email")],
    slotOf "submit" [button [] (tHtml "reset.request.submit")], slotOf "form.close" [],
    slotOf "links" (backToSignIn tHtml signInPath)]

def renderResetPasswordForm (problems rules : List (List Inline)) : Parts :=
  [slotOf "intro" (intro (tHtml "reset.form.title")), slotOf "error" (problemSummary problems),
    slotOf "form.open" [input],
    slotOf "fields" (passwordField tHtml "reset.form.newPassword" rules),
    slotOf "submit" [button [] (tHtml "reset.form.submit")], slotOf "form.close" [],
    slotOf "links" []]

def renderEmailConfirmPage (account : Bool) : Parts :=
  [slotOf "message" (el "h1" [] (phrase (tHtml "confirm.title")) ::
      ((if account then [paragraph (tHtml "confirm.account")] else []) ++
        [paragraph (tHtml "confirm.next")])),
    slotOf "form.open" [input], slotOf "submit" [button [] (tHtml "confirm.button")],
    slotOf "form.close" []]

/-- `listHtml` -/
def listHtml (actions : List (List Inline)) : PageDom :=
  el "ul" [] (actions.map fun action ↦ el "li" [] (phrase action))

def renderRequiredActionsForm (actions problems : List (List Inline))
    (rules : Option (List (List Inline))) : Parts :=
  [slotOf "intro" (intro (tHtml "requiredActions.title")),
    slotOf "actions" [paragraph (tHtml "requiredActions.intro"), listHtml actions],
    slotOf "error" (problemSummary problems), slotOf "form.open" [input],
    slotOf "fields" ((rules.map (passwordField tHtml "requiredActions.newPassword")).getD []),
    slotOf "submit" [button [] (tHtml "requiredActions.continue")], slotOf "form.close" []]

/-- What a notice says after its heading. -/
inductive NoticeBlock where
  | paragraph (message : String)
  | actions (actions : List (List Inline))
  | links (ways : List (List Inline))

def NoticeBlock.nodes (tHtml : Phrases) : NoticeBlock → List PageDom
  | .paragraph message => [DomainTheme.Stylesheets.paragraph (tHtml message)]
  | .actions items => [listHtml items]
  | .links ways => Stylesheets.links ways

/-- `fillNotice` -/
def fillNotice (heading : String) (blocks : List NoticeBlock) (ways : List (List Inline)) : Parts :=
  [slotOf "intro" [],
    slotOf "message" (el "h1" [] (phrase (tHtml heading)) :: blocks.flatMap (NoticeBlock.nodes tHtml)),
    slotOf "links" (Stylesheets.links ways)]

/-! ### The elements are plain -/

@[simp] theorem plain_returnToField (signInPath : Bool) :
    AllPlain false (returnToField signInPath) := by
  cases signInPath <;> simp [returnToField]

@[simp] theorem plain_backToSignIn (signInPath : Bool) :
    AllPlain false (backToSignIn tHtml signInPath) := by
  cases signInPath <;> simp [backToSignIn]

@[simp] theorem plain_listHtml (actions : List (List Inline)) :
    AllPlain false [listHtml actions] := by
  simp +decide [listHtml]

theorem plain_registration (problems rules : List (List Inline)) (signInPath : Bool) :
    PlainParts false (renderRegistrationForm tHtml problems rules signInPath) := by
  simp +decide [renderRegistrationForm]

theorem plain_resetRequest (problems : List (List Inline)) (signInPath : Bool) :
    PlainParts false (renderResetRequestForm tHtml problems signInPath) := by
  simp +decide [renderResetRequestForm]

theorem plain_resetPassword (problems rules : List (List Inline)) :
    PlainParts false (renderResetPasswordForm tHtml problems rules) := by
  simp +decide [renderResetPasswordForm]

theorem plain_emailConfirm (account : Bool) :
    PlainParts false (renderEmailConfirmPage tHtml account) := by
  cases account <;> simp +decide [renderEmailConfirmPage]

theorem plain_requiredActions (actions problems : List (List Inline))
    (rules : Option (List (List Inline))) :
    PlainParts false (renderRequiredActionsForm tHtml actions problems rules) := by
  cases rules <;> simp +decide [renderRequiredActionsForm]

theorem plain_noticeBlock (block : NoticeBlock) : AllPlain false (block.nodes tHtml) := by
  cases block <;> simp [NoticeBlock.nodes]

theorem plain_notice (heading : String) (blocks : List NoticeBlock)
    (ways : List (List Inline)) : PlainParts false (fillNotice tHtml heading blocks ways) := by
  simp +decide [fillNotice, plain_noticeBlock]

end Odudu.Account.PageParts
