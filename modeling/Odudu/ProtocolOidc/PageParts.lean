import Odudu.DomainTheme.PageMarkup

/-!
# The parts of the sign-in pages

The renderers of `consent-html.ts`, `select-account-html.ts`, `authorize-html.ts` and
`logout-html.ts`, and of the pages outside any tenant: the elements that each gives its parts.
What the elements say, and where their links and forms lead, is not kept.
-/

set_option autoImplicit false

namespace Odudu.ProtocolOidc.PageParts

open Texts Styles DomainTheme.Stylesheets

variable (tHtml : Phrases)

/-! ### Consent -/

structure ConsentPageInput where
  /-- The texts of `sourceLines`. -/
  sourceLines : List (List Inline)
  /-- The texts of the links to the client's own pages. -/
  pageLinks : List (List Inline)
  defaultScopes : List (List Inline)
  optionalScopes : List (List Inline)

def renderDefaultScope (text : List Inline) : PageDom :=
  marked .scopes "li" [] (phraseOf .scopes text)

def renderOptionalScope (text : List Inline) : PageDom :=
  marked .scopes "label" [] (marked .scopes "input" [] [] :: .text :: phraseOf .scopes text)

def renderPageLinks (texts : List (List Inline)) : List PageDom :=
  if texts = [] then []
  else [el "p" [] (texts.flatMap fun text ↦ [el "a" [] (phrase text), .text])]

def renderConsentPage (page : ConsentPageInput) : Parts :=
  [slotOf "client" (introOf .clientName (tHtml "consent.heading") true page.sourceLines),
    slotOf "links" (renderPageLinks page.pageLinks), slotOf "error" [],
    slotOf "form.open" [input],
    slotOf "scopes" (marked .scopes "ul" [] (page.defaultScopes.map renderDefaultScope) ::
      page.optionalScopes.map renderOptionalScope),
    slotOf "submit.allow" [button [] (tHtml "consent.allow")],
    slotOf "submit.deny" [button ["secondary"] (tHtml "consent.deny")], slotOf "form.close" []]

theorem plain_consent (page : ConsentPageInput) :
    PlainParts true (renderConsentPage tHtml page) := by
  have hclient : AllPlain true
      (introOf .clientName (tHtml "consent.heading") true page.sourceLines) :=
    allPlain_introOf (by decide) (by decide) (by decide)
  have hlinks : AllPlain true (renderPageLinks page.pageLinks) := by
    unfold renderPageLinks
    split
    · exact allPlain_nil
    · simp +decide
  have hdefault : ∀ text, AllPlain true [renderDefaultScope text] := by
    intro text
    simp +decide [renderDefaultScope, allPlain_phraseOf]
  have hoptional : ∀ text, AllPlain true [renderOptionalScope text] := by
    intro text
    simp +decide [renderOptionalScope, allPlain_phraseOf]
  simp +decide [renderConsentPage, hclient, hlinks, hdefault, hoptional]

/-! ### Accounts -/

def renderAccount : PageDom :=
  marked .choice "button" ["secondary", "choice"] (phraseOf .choice bdi)

def renderSelectAccountPage (accounts : ℕ) : Parts :=
  [slotOf "intro" (intro (tHtml "selectAccount.title")), slotOf "form.open" [input],
    slotOf "accounts" (List.replicate accounts renderAccount),
    slotOf "submit.other" [button ["quiet"] (tHtml "selectAccount.useOther")],
    slotOf "form.close" []]

theorem plain_selectAccount (accounts : ℕ) :
    PlainParts false (renderSelectAccountPage tHtml accounts) := by
  have haccount : AllPlain false [renderAccount] := by
    simp +decide [renderAccount, allPlain_phraseOf]
  simp +decide [renderSelectAccountPage, haccount]

/-! ### Sign-in -/

/-- The step that a form is for. -/
inductive LoginStep where
  | password (loginWithEmail : Bool)
  | otp
  | recoveryCode
  | other

def recoveryCodeField : PageDom := label (tHtml "login.recoveryCode.label")

def renderFormFields : LoginStep → List PageDom
  | .password loginWithEmail =>
    [label (tHtml (if loginWithEmail then "login.usernameOrEmail" else "login.username")),
      label (tHtml "login.password")]
  | .otp => [label (tHtml "login.otp.code"), recoveryCodeField tHtml]
  | .recoveryCode => [recoveryCodeField tHtml]
  | .other => [paragraph (tHtml "login.unsupportedStep")]

def renderPasskeyOption : List PageDom :=
  [el "form" [] [input, input,
      el "p" [] [button ["secondary"] (tHtml "login.passkey.submit")]],
    el "p" ["alert"] [], el "noscript" [] [paragraph (tHtml "login.passkey.needsScript")], script]

structure LoginForm where
  step : LoginStep
  title : String
  submit : String
  passkey : Bool
  rememberMe : Bool
  /-- Whether the parked request names a client. -/
  client : Bool
  problems : List (List Inline)
  ways : List (List Inline)

def renderLoginForm (form : LoginForm) : Parts :=
  [slotOf "intro" (introOf .part (tHtml form.title) true
      (if form.client then [tHtml "login.context"] else [])),
    slotOf "error" (problemSummary form.problems), slotOf "form.open" [input],
    slotOf "fields" (renderFormFields tHtml form.step ++
      if form.rememberMe then
        [el "label" [] (input :: .text :: phrase (tHtml "login.rememberMe"))]
      else []),
    slotOf "submit" [button [] (tHtml form.submit)], slotOf "form.close" [],
    slotOf "passkey" (if form.passkey then renderPasskeyOption tHtml else []),
    slotOf "links" (links form.ways)]

theorem plain_login (form : LoginForm) : PlainParts false (renderLoginForm tHtml form) := by
  have hfields : AllPlain false (renderFormFields tHtml form.step) := by
    cases form.step <;> simp [renderFormFields, recoveryCodeField]
  have hremember : AllPlain false (if form.rememberMe then
      [el "label" [] (input :: .text :: phrase (tHtml "login.rememberMe"))] else []) := by
    split
    · simp +decide
    · exact allPlain_nil
  have hpasskey : AllPlain false (if form.passkey then renderPasskeyOption tHtml else []) := by
    split
    · simp +decide [renderPasskeyOption]
    · exact allPlain_nil
  simp +decide [renderLoginForm, allPlain_introOf_part, hfields, hremember, hpasskey]

/-! ### Errors -/

def renderAuthorizeErrorPage (wayOn : Option String) : Parts :=
  [slotOf "message" [el "h1" [] (phrase (tHtml "error.heading")), paragraph bdi],
    slotOf "links" (wayOn.toList.map fun text ↦ el "p" [] [el "a" [] (phrase (tHtml text))]),
    slotOf "code" [el "p" [] [el "small" [] [.text]]]]

def renderEmailUnverifiedPage (signIn : Bool) : Parts :=
  [slotOf "message" [el "h1" [] (phrase (tHtml "emailUnverified.heading")),
      paragraph (tHtml "emailUnverified.body")],
    slotOf "links" (if signIn then links [tHtml "link.backToSignIn"] else [])]

theorem plain_authorizeError (wayOn : Option String) :
    PlainParts false (renderAuthorizeErrorPage tHtml wayOn) := by
  simp +decide [renderAuthorizeErrorPage]

theorem plain_emailUnverified (signIn : Bool) :
    PlainParts false (renderEmailUnverifiedPage tHtml signIn) := by
  cases signIn <;> simp +decide [renderEmailUnverifiedPage]

/-! ### Logout -/

def renderLogoutConfirmationPage (fields : ℕ) : Parts :=
  [slotOf "form.open" (input :: input :: List.replicate fields input),
    slotOf "submit" [button [] (tHtml "logout.confirm.submit")], slotOf "form.close" []]

/-- A page of `logged-out`: its heading and what it says, with the frames it has, and the way on
that it leaves by. -/
def loggedOutPage (title body : String) (frames : ℕ) (wayOn : Option String) : Parts :=
  [slotOf "message" ((wayOn.toList.map fun _ ↦ el "meta" [] []) ++
      [el "h1" [] (phrase (tHtml title)), paragraph (tHtml body)] ++
      wayOn.toList.map fun text ↦ el "p" [] [el "a" [] (phrase (tHtml text))]),
    slotOf "links" [], slotOf "frames" (List.replicate frames (el "iframe" [] [])),
    slotOf "script" (wayOn.toList.map fun _ ↦ script)]

def renderNoActiveSessionPage : Parts :=
  loggedOutPage tHtml "logout.noSession.title" "logout.noSession.body" 0 none

def renderLoggedOutPage (frames : ℕ) : Parts :=
  loggedOutPage tHtml "logout.done.title" "logout.done.body" frames none

def renderLoggedOutRedirectPage (frames : ℕ) : Parts :=
  loggedOutPage tHtml "logout.done.title" "logout.redirecting.body" frames
    (some "logout.redirecting.continue")

def renderLogoutRedirectRefusedPage (frames : ℕ) : Parts :=
  loggedOutPage tHtml "logout.done.title" "logout.redirectRefused.body" frames none

def renderLogoutUnauthenticatedPage : Parts :=
  loggedOutPage tHtml "logout.unauthenticated.title" "logout.unauthenticated.body" 0 none

theorem plain_logoutConfirmation (fields : ℕ) :
    PlainParts false (renderLogoutConfirmationPage tHtml fields) := by
  simp +decide [renderLogoutConfirmationPage]

theorem plain_loggedOut (title body : String) (frames : ℕ) (wayOn : Option String) :
    PlainParts false (loggedOutPage tHtml title body frames wayOn) := by
  cases wayOn <;> simp +decide [loggedOutPage]

/-! ### Outside any tenant -/

def lostArt (calm : Bool) : PageDom :=
  el "svg" (if calm then ["lost", "lost-calm"] else ["lost"])
    [el "g" ["lost-window"] [el "rect" [] [], el "path" [] []],
      el "path" ["lost-route", "lost-route-a"] [], el "path" ["lost-route", "lost-route-b"] [],
      el "path" ["lost-bridge"] [],
      el "g" ["lost-badge"] [el "circle" [] [], el "path" [] [], el "path" [] []],
      el "g" ["lost-staff"] [el "circle" [] [], el "path" [] [], el "path" [] []]]

def renderNotFoundPage (items : List String) : List PageDom :=
  [lostArt false, el "h1" [] (phrase (tHtml "notFound.title")), paragraph (tHtml "notFound.body")] ++
    if items = [] then []
    else [el "ul" [] (items.map fun item ↦ el "li" [] [el "a" [] (phrase (tHtml item))])]

def renderServerErrorPage (requestId : Bool) : List PageDom :=
  [lostArt true, el "h1" [] (phrase (tHtml "serverError.title")),
    paragraph (tHtml "serverError.body")] ++
    if requestId then [el "p" [] [el "small" [] (phrase (tHtml "serverError.requestId"))]] else []

def renderThrottledPage : List PageDom :=
  [el "h1" [] (phrase (tHtml "throttled.title")), paragraph (tHtml "throttled.retryAfter"),
    paragraph (tHtml "throttled.goBack")]

def renderPreviousAddressPage : List PageDom :=
  [el "h1" [] (phrase (tHtml "movedAddress.title")), paragraph (tHtml "movedAddress.body"),
    el "p" [] [el "a" [] (phrase bdi)]]

/-- `renderSignInRefused`, of the console. -/
def renderSignInRefused : List PageDom :=
  [el "h1" [] (phrase (tHtml "refusal.title")), paragraph (tHtml "refusal.reason"),
    el "p" [] [el "a" [] (phrase (tHtml "refusal.again"))]]

theorem plain_lostArt (calm : Bool) : AllPlain false [lostArt calm] := by
  cases calm <;> simp +decide [lostArt]

theorem plain_notFound (items : List String) : AllPlain false (renderNotFoundPage tHtml items) := by
  have hitems : AllPlain false (if items = [] then []
      else [el "ul" [] (items.map fun item ↦ el "li" [] [el "a" [] (phrase (tHtml item))])]) := by
    split
    · exact allPlain_nil
    · simp +decide
  rw [renderNotFoundPage, allPlain_append, allPlain_iff]
  refine ⟨?_, hitems⟩
  simp +decide [plain_lostArt]

theorem plain_serverError (requestId : Bool) :
    AllPlain false (renderServerErrorPage tHtml requestId) := by
  rw [renderServerErrorPage, allPlain_append, allPlain_iff]
  refine ⟨?_, ?_⟩
  · simp +decide [plain_lostArt]
  · cases requestId <;> simp +decide

theorem plain_throttled : AllPlain false (renderThrottledPage tHtml) := by
  simp +decide [renderThrottledPage]

theorem plain_previousAddress : AllPlain false (renderPreviousAddressPage tHtml) := by
  simp +decide [renderPreviousAddressPage]

theorem plain_signInRefused : AllPlain false (renderSignInRefused tHtml) := by
  simp +decide [renderSignInRefused]

end Odudu.ProtocolOidc.PageParts
