import Odudu.DomainTheme.PageMarkup

/-!
# The parts of the pages of a required action

The renderers of `totp-enrolment-html.ts`, `passkey-enrolment-html.ts`,
`recovery-codes-html.ts`, `update-password-html.ts` and `required-action-html.ts`.
-/

set_option autoImplicit false

namespace Odudu.AuthnFlows.PageParts

open Texts Styles DomainTheme.Stylesheets

variable (tHtml : Phrases)

/-- `token` -/
def token : PageDom := el "bdi" [] [el "code" [] [.text]]

/-- A page of one form under its heading. -/
def formPage (title submit : String) (problems : List (List Inline)) (hidden fields : List PageDom)
    (others : Parts) : Parts :=
  [slotOf "intro" (intro (tHtml title)), slotOf "error" (problemSummary problems),
    slotOf "form.open" hidden, slotOf "fields" fields,
    slotOf "submit" [button [] (tHtml submit)], slotOf "form.close" []] ++ others

/-- The drawing of the code, of so many paths. -/
def qrSvg (shapes : ℕ) : PageDom :=
  el "svg" [] (el "rect" [] [] :: List.replicate shapes (el "path" [] []))

def renderTotpEnrolmentPage (problems : List (List Inline)) (shapes : ℕ) : Parts :=
  formPage tHtml "totp.title" "totp.confirm" problems [input, input]
    [label (tHtml "totp.codeLabel")]
    [slotOf "offer" [paragraph (tHtml "totp.scan"), qrSvg shapes, el "p" [] [token],
      el "p" [] (phrase (tHtml "totp.key") ++ [token])]]

def renderPasskeyEnrolmentPage (problems : List (List Inline)) : Parts :=
  formPage tHtml "passkey.title" "passkey.submit" problems [input, input]
    [label (tHtml "passkey.nameLabel")]
    [slotOf "script" [el "p" ["alert"] [],
      el "noscript" [] [paragraph (tHtml "passkey.needsScript")], script]]

def renderRecoveryCodesPage (problems : List (List Inline)) (codes : ℕ) (replaced : Bool) : Parts :=
  formPage tHtml "recoveryCodes.title" "recoveryCodes.acknowledge" problems [input] []
    [slotOf "instructions" [el "p" [] (phrase (tHtml "recoveryCodes.use") ++
        [el "strong" [] (phrase (tHtml "recoveryCodes.onlyTime"))] ++
        phrase (tHtml "recoveryCodes.keep"))],
      slotOf "notice" (if replaced then [paragraph (tHtml "recoveryCodes.replaced")] else []),
      slotOf "codes" [el "ol" [] (List.replicate codes (el "li" [] [token]))]]

def renderUpdatePasswordPage (problems rules : List (List Inline)) : Parts :=
  formPage tHtml "updatePassword.title" "updatePassword.submit" problems [input]
    (passwordField tHtml "updatePassword.newPassword" rules) []

def renderRequiredActionPage (signIn : Bool) : Parts :=
  [slotOf "message" ([el "h1" [] (phrase (tHtml "requiredAction.title")),
      paragraph (tHtml "requiredAction.pending"), paragraph (tHtml "requiredAction.askAdmin")] ++
      if signIn then links [tHtml "link.backToSignIn"] else [])]

/-! ### The elements are plain -/

theorem plain_formPage {title submit : String} {problems : List (List Inline)}
    {hidden fields : List PageDom} {others : Parts} (hhidden : AllPlain false hidden)
    (hfields : AllPlain false fields) (hothers : PlainParts false others) :
    PlainParts false (formPage tHtml title submit problems hidden fields others) := by
  rw [formPage, plainParts_append]
  refine ⟨?_, hothers⟩
  simp +decide [hhidden, hfields]

theorem plain_totpEnrolment (problems : List (List Inline)) (shapes : ℕ) :
    PlainParts false (renderTotpEnrolmentPage tHtml problems shapes) := by
  refine plain_formPage tHtml (by simp) (by simp) ?_
  simp +decide [qrSvg, token]

theorem plain_passkeyEnrolment (problems : List (List Inline)) :
    PlainParts false (renderPasskeyEnrolmentPage tHtml problems) := by
  refine plain_formPage tHtml (by simp) (by simp) ?_
  simp +decide

theorem plain_recoveryCodes (problems : List (List Inline)) (codes : ℕ) (replaced : Bool) :
    PlainParts false (renderRecoveryCodesPage tHtml problems codes replaced) := by
  refine plain_formPage tHtml (by simp) (by simp) ?_
  cases replaced <;> simp +decide [token]

theorem plain_updatePassword (problems rules : List (List Inline)) :
    PlainParts false (renderUpdatePasswordPage tHtml problems rules) :=
  plain_formPage tHtml (by simp) (by simp) plainParts_nil

theorem plain_requiredAction (signIn : Bool) :
    PlainParts false (renderRequiredActionPage tHtml signIn) := by
  cases signIn <;> simp +decide [renderRequiredActionPage]

end Odudu.AuthnFlows.PageParts
