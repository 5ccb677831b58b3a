import HowBigDemo.Bridge.QueryParameters

namespace HowBigDemo
namespace Bridge

open Library

/-!
# The two native bridges

`WebViewController` answers the page through a `UIWebView` and
`WKWebViewController` through a `WKWebView`.  Each intercepts navigations
with the scheme `haleyaction`, dispatches on the host and evaluates a script
in the page.  The methods were written twice, so each controller has its own
definitions here, under the same names.

`bridges_agree_iff` compares them on every URL.  They differ in the script
of one host: `payResult` of the page takes a text and a code, and only one
of the two controllers passes the code.
-/

/-- The view whose background colour an action sets. -/
inductive ColorTarget
  | view
  | webView
  deriving DecidableEq

/-- What an action does outside the controller.  Colours keep the texts that
`floatValue` reads. -/
inductive Effect
  | log (message : NSString)
  | evaluate (script : NSString)
  | setBackgroundColor (target : ColorTarget) (r g b a : Option NSString)
  | playVibration
  | goBack
  deriving DecidableEq

/-- An action raises or has effects in order. -/
abbrev Outcome := Except NSException (List Effect)

/-- The conversion `%@`. -/
def formatObject : Option NSString -> NSString
  | none => text "(null)"
  | some object => object

def location : NSString := text "广东省深圳市南山区学府路XXXX号"
def paid : NSString := text "支付成功"

/-- The scripts among some effects. -/
def scripts (effects : List Effect) : List NSString :=
  effects.filterMap fun
    | .evaluate script => some script
    | _ => none

namespace WebViewController

def getLocation : Outcome :=
  .ok [.evaluate (text "setLocation('" ++ location ++ text "')")]

def share (url : NSURL) : Outcome :=
  match readParameters url.query with
  | .error exception => .error exception
  | .ok tempDic =>
    let title := tempDic (text "title")
    let content := tempDic (text "content")
    let link := tempDic (text "url")
    .ok [.evaluate (text "shareResult('" ++ formatObject title ++ text "','" ++
      formatObject content ++ text "','" ++ formatObject link ++ text "')")]

def changeBGColor (url : NSURL) : Outcome :=
  match readParameters url.query with
  | .error exception => .error exception
  | .ok tempDic =>
    .ok [.setBackgroundColor .webView (tempDic (text "r")) (tempDic (text "g"))
      (tempDic (text "b")) (tempDic (text "a"))]

def payAction (url : NSURL) : Outcome :=
  match readParameters url.query with
  | .error exception => .error exception
  | .ok _ =>
    let code := 1
    .ok [.evaluate (text "payResult('" ++ paid ++ text "'," ++ text (Nat.repr code) ++ text ")")]

def shakeAction : Outcome :=
  .ok [.playVibration]

def goBack : Outcome :=
  .ok [.goBack]

def handleCustomAction (url : NSURL) : Outcome :=
  if url.host = some (text "scanClick") then .ok [.log (text "扫一扫")]
  else if url.host = some (text "shareClick") then share url
  else if url.host = some (text "getLocation") then getLocation
  else if url.host = some (text "setColor") then changeBGColor url
  else if url.host = some (text "payAction") then payAction url
  else if url.host = some (text "shake") then shakeAction
  else if url.host = some (text "goBack") then goBack
  else .ok []

/-- The delegate's BOOL and the effects of the request. -/
def shouldStartLoadWithRequest (url : NSURL) : Except NSException (Bool × List Effect) :=
  if url.scheme = some (text "haleyaction") then
    match handleCustomAction url with
    | .error exception => .error exception
    | .ok effects => .ok (false, effects)
  else .ok (true, [])

end WebViewController

/-- The policies of `decidePolicyForNavigationAction` that the source uses. -/
inductive WKNavigationActionPolicy
  | cancel
  | allow
  deriving DecidableEq

namespace WKWebViewController

def getLocation : Outcome :=
  .ok [.evaluate (text "setLocation('" ++ location ++ text "')")]

def share (url : NSURL) : Outcome :=
  match readParameters url.query with
  | .error exception => .error exception
  | .ok tempDic =>
    let title := tempDic (text "title")
    let content := tempDic (text "content")
    let link := tempDic (text "url")
    .ok [.evaluate (text "shareResult('" ++ formatObject title ++ text "','" ++
      formatObject content ++ text "','" ++ formatObject link ++ text "')")]

def changeBGColor (url : NSURL) : Outcome :=
  match readParameters url.query with
  | .error exception => .error exception
  | .ok tempDic =>
    .ok [.setBackgroundColor .view (tempDic (text "r")) (tempDic (text "g"))
      (tempDic (text "b")) (tempDic (text "a"))]

/-- Without the code that the other controller passes. -/
def payAction (url : NSURL) : Outcome :=
  match readParameters url.query with
  | .error exception => .error exception
  | .ok _ => .ok [.evaluate (text "payResult('" ++ paid ++ text "')")]

def shakeAction : Outcome :=
  .ok [.playVibration]

def goBack : Outcome :=
  .ok [.goBack]

def handleCustomAction (url : NSURL) : Outcome :=
  if url.host = some (text "scanClick") then .ok [.log (text "扫一扫")]
  else if url.host = some (text "shareClick") then share url
  else if url.host = some (text "getLocation") then getLocation
  else if url.host = some (text "setColor") then changeBGColor url
  else if url.host = some (text "payAction") then payAction url
  else if url.host = some (text "shake") then shakeAction
  else if url.host = some (text "goBack") then goBack
  else .ok []

/-- The policy given to the decision handler and the effects of the request.
When an action raises, the handler is not called. -/
def decidePolicyForNavigationAction (url : NSURL) :
    Except NSException (WKNavigationActionPolicy × List Effect) :=
  if url.scheme = some (text "haleyaction") then
    match handleCustomAction url with
    | .error exception => .error exception
    | .ok effects => .ok (.cancel, effects)
  else .ok (.allow, [])

end WKWebViewController

/-! ## Comparison -/

/-- Two actions raise the same exception, or evaluate the same scripts. -/
def SameScripts : Outcome -> Outcome -> Prop
  | .ok effects, .ok effects' => scripts effects = scripts effects'
  | .error exception, .error exception' => exception = exception'
  | _, _ => False

/-- Two answers to a navigation raise the same exception, or make the same
decision and evaluate the same scripts. -/
def SameAnswer : Except NSException (Bool × List Effect) ->
    Except NSException (WKNavigationActionPolicy × List Effect) -> Prop
  | .ok (starts, effects), .ok (policy, effects') =>
      (starts = true ↔ policy = .allow) ∧ scripts effects = scripts effects'
  | .error exception, .error exception' => exception = exception'
  | _, _ => False

theorem sameScripts_refl (outcome : Outcome) : SameScripts outcome outcome := by
  cases outcome <;> exact rfl

theorem changeBGColor_sameScripts (url : NSURL) :
    SameScripts (WebViewController.changeBGColor url) (WKWebViewController.changeBGColor url) := by
  unfold WebViewController.changeBGColor WKWebViewController.changeBGColor
  cases readParameters url.query <;> exact rfl

/-- The payment actions agree exactly when both raise. -/
theorem payAction_sameScripts_iff (url : NSURL) :
    SameScripts (WebViewController.payAction url) (WKWebViewController.payAction url) ↔
      ¬ Exists fun parameters => readParameters url.query = .ok parameters := by
  unfold WebViewController.payAction WKWebViewController.payAction
  cases read : readParameters url.query with
  | error exception =>
      constructor
      · rintro _ ⟨parameters, impossible⟩
        cases impossible
      · intro _
        exact rfl
  | ok parameters =>
      constructor
      · intro same
        have different : ¬ [text "payResult('" ++ paid ++ text "'," ++ text (Nat.repr 1) ++ text ")"] =
            [text "payResult('" ++ paid ++ text "')"] := by
          decide +kernel
        exact absurd same different
      · intro raised
        exact absurd ⟨parameters, rfl⟩ raised

/-- The dispatch tables agree on every host but the payment host. -/
theorem handleCustomAction_sameScripts (url : NSURL) (other : url.host ≠ some (text "payAction")) :
    SameScripts (WebViewController.handleCustomAction url)
      (WKWebViewController.handleCustomAction url) := by
  unfold WebViewController.handleCustomAction WKWebViewController.handleCustomAction
  by_cases scan : url.host = some (text "scanClick")
  · rw [if_pos scan, if_pos scan]
    exact sameScripts_refl _
  rw [if_neg scan, if_neg scan]
  by_cases share : url.host = some (text "shareClick")
  · rw [if_pos share, if_pos share]
    exact sameScripts_refl (WebViewController.share url)
  rw [if_neg share, if_neg share]
  by_cases location : url.host = some (text "getLocation")
  · rw [if_pos location, if_pos location]
    exact sameScripts_refl WebViewController.getLocation
  rw [if_neg location, if_neg location]
  by_cases color : url.host = some (text "setColor")
  · rw [if_pos color, if_pos color]
    exact changeBGColor_sameScripts url
  rw [if_neg color, if_neg color, if_neg other, if_neg other]
  exact sameScripts_refl _

theorem handleCustomAction_payAction {url : NSURL} (host : url.host = some (text "payAction")) :
    WebViewController.handleCustomAction url = WebViewController.payAction url ∧
      WKWebViewController.handleCustomAction url = WKWebViewController.payAction url := by
  have scan : ¬ some (text "payAction") = some (text "scanClick") := by decide +kernel
  have share : ¬ some (text "payAction") = some (text "shareClick") := by decide +kernel
  have location : ¬ some (text "payAction") = some (text "getLocation") := by decide +kernel
  have color : ¬ some (text "payAction") = some (text "setColor") := by decide +kernel
  unfold WebViewController.handleCustomAction WKWebViewController.handleCustomAction
  rw [host, if_neg scan, if_neg share, if_neg location, if_neg color, if_pos rfl, if_neg scan,
    if_neg share, if_neg location, if_neg color, if_pos rfl]
  exact ⟨rfl, rfl⟩

/-- For an intercepted URL, the answers agree exactly if the actions do. -/
theorem sameAnswer_iff_sameScripts {url : NSURL} (scheme : url.scheme = some (text "haleyaction")) :
    SameAnswer (WebViewController.shouldStartLoadWithRequest url)
        (WKWebViewController.decidePolicyForNavigationAction url) ↔
      SameScripts (WebViewController.handleCustomAction url)
        (WKWebViewController.handleCustomAction url) := by
  unfold WebViewController.shouldStartLoadWithRequest
    WKWebViewController.decidePolicyForNavigationAction
  rw [if_pos scheme, if_pos scheme]
  cases WebViewController.handleCustomAction url with
  | error exception =>
      cases WKWebViewController.handleCustomAction url <;> exact Iff.rfl
  | ok effects =>
      cases WKWebViewController.handleCustomAction url with
      | error exception => exact Iff.rfl
      | ok effects' =>
          constructor
          · intro same
            exact same.2
          · intro same
            exact ⟨by decide, same⟩

/-- For every URL, the bridges make the same decision, raise in the same
cases and evaluate the same scripts, unless the URL is a payment request
whose query can be read. -/
theorem bridges_agree_iff (url : NSURL) :
    SameAnswer (WebViewController.shouldStartLoadWithRequest url)
        (WKWebViewController.decidePolicyForNavigationAction url) ↔
      ¬ (url.scheme = some (text "haleyaction") ∧ url.host = some (text "payAction") ∧
        Exists fun parameters => readParameters url.query = .ok parameters) := by
  by_cases scheme : url.scheme = some (text "haleyaction")
  · rw [sameAnswer_iff_sameScripts scheme]
    by_cases host : url.host = some (text "payAction")
    · rw [(handleCustomAction_payAction host).1, (handleCustomAction_payAction host).2,
        payAction_sameScripts_iff]
      constructor
      · rintro raised ⟨_, _, read⟩
        exact raised read
      · intro excluded read
        exact excluded ⟨scheme, host, read⟩
    · constructor
      · rintro _ ⟨_, impossible, _⟩
        exact host impossible
      · intro _
        exact handleCustomAction_sameScripts url host
  · unfold WebViewController.shouldStartLoadWithRequest
      WKWebViewController.decidePolicyForNavigationAction
    rw [if_neg scheme, if_neg scheme]
    constructor
    · rintro _ ⟨impossible, _⟩
      exact scheme impossible
    · intro _
      exact ⟨by decide, rfl⟩

/-- The payment link of the page, without its last parameter: one bridge
passes a text and a code to `payResult`, the other the text alone. -/
theorem bridges_differ_on_payment :
    ¬ SameAnswer
      (WebViewController.shouldStartLoadWithRequest
        ⟨some (text "haleyaction"), some (text "payAction"),
          some (text "order_no=201511120981234&channel=wx&amount=1")⟩)
      (WKWebViewController.decidePolicyForNavigationAction
        ⟨some (text "haleyaction"), some (text "payAction"),
          some (text "order_no=201511120981234&channel=wx&amount=1")⟩) := by
  rw [sameAnswer_iff_sameScripts rfl, (handleCustomAction_payAction rfl).1,
    (handleCustomAction_payAction rfl).2, payAction_sameScripts_iff, not_not]
  exact ⟨_, readParameters_of_isOk (by decide +kernel)⟩

end Bridge
end HowBigDemo
