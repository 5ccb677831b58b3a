import HowBigDemo.Bridge.Controllers
import HowBigDemo.Library.PercentEscapes

namespace HowBigDemo
namespace Bridge

open Library

/-!
# When the query loops raise

Six methods read the query of a URL: `share:`, `changeBGColor:` and
`payAction:` of both web controllers.  The page chooses the query.  A round
of the loop stores what the second component of a segment decodes to, and
for a component that does not decode it stores nil, which raises.
`loopsFinish_iff` says for which queries none of this happens.
-/

/-- A round of the loop over the segments. -/
def storeSegment (tempDic : NSDictionary) (paramStr : NSString) : Except NSException NSDictionary :=
  match componentsSeparatedBy equalsSign (some paramStr) with
  | key :: value :: _ => setObject tempDic (replacePercentEscapes value) key
  | _ => .ok tempDic

theorem readSegments_cons (tempDic : NSDictionary) (paramStr : NSString) (rest : List NSString) :
    readSegments tempDic (paramStr :: rest) =
      match storeSegment tempDic paramStr with
      | .error exception => .error exception
      | .ok tempDic => readSegments tempDic rest := by
  rw [readSegments, storeSegment]
  match componentsSeparatedBy equalsSign (some paramStr) with
  | [] => rfl
  | [_] => rfl
  | _ :: _ :: _ => rfl

/-- The component that a segment stores, if it has one: the text between its
first and its second `=`. -/
def storedComponent (paramStr : NSString) : Option NSString :=
  (componentsSeparatedBy equalsSign (some paramStr))[1]?

/-- The component that a segment stores consists of units other than `%` and
of escapes that spell UTF-8. -/
def SegmentDecodes (paramStr : NSString) : Prop :=
  forall value, storedComponent paramStr = some value -> Exists fun decoded => Decodes value decoded

/-- Every segment of the query decodes.  An absent query has no segment. -/
def QueryDecodes (query : Option NSString) : Prop :=
  forall paramStr, paramStr ∈ componentsSeparatedBy ampersand query -> SegmentDecodes paramStr

/-- The method, or the loop, ends without raising. -/
def Finishes {Result : Type u} (outcome : Except NSException Result) : Prop :=
  outcome.isOk = true

theorem finishes_ok {Result : Type u} (result : Result) :
    Finishes (.ok result : Except NSException Result) :=
  rfl

theorem not_finishes_error {Result : Type u} (exception : NSException) :
    ¬ Finishes (.error exception : Except NSException Result) := by
  intro impossible
  cases impossible

/-- A round raises exactly for a segment that does not decode. -/
theorem storeSegment_finishes_iff (tempDic : NSDictionary) (paramStr : NSString) :
    Finishes (storeSegment tempDic paramStr) ↔ SegmentDecodes paramStr := by
  unfold storeSegment SegmentDecodes storedComponent
  match componentsSeparatedBy equalsSign (some paramStr) with
  | [] => exact ⟨fun _ _ absent => (nomatch absent), fun _ => finishes_ok _⟩
  | [_] => exact ⟨fun _ _ absent => (nomatch absent), fun _ => finishes_ok _⟩
  | key :: value :: _ =>
      change Finishes (setObject tempDic (replacePercentEscapes value) key) ↔
        forall other, some value = some other -> _
      cases replaced : replacePercentEscapes value with
      | none =>
          refine ⟨fun finished => absurd finished (not_finishes_error _), ?_⟩
          intro decodes
          rcases decodes value rfl with ⟨decoded, valueDecodes⟩
          rw [(replacePercentEscapes_eq_some_iff value decoded).mpr valueDecodes] at replaced
          cases replaced
      | some decoded =>
          refine ⟨?_, fun _ => finishes_ok _⟩
          intro _ other same
          cases same
          exact ⟨decoded, (replacePercentEscapes_eq_some_iff value decoded).mp replaced⟩

/-- The loop finishes exactly when every round does. -/
theorem readSegments_finishes_iff (tempDic : NSDictionary) (segments : List NSString) :
    Finishes (readSegments tempDic segments) ↔
      forall paramStr, paramStr ∈ segments -> SegmentDecodes paramStr := by
  induction segments generalizing tempDic with
  | nil => exact ⟨fun _ _ listed => absurd listed List.not_mem_nil, fun _ => rfl⟩
  | cons paramStr rest inductionHypothesis =>
      rw [readSegments_cons, List.forall_mem_cons, ← storeSegment_finishes_iff tempDic paramStr]
      cases stored : storeSegment tempDic paramStr with
      | error exception =>
          constructor
          · intro finished
            exact absurd finished (not_finishes_error exception)
          · intro both
            exact absurd both.1 (not_finishes_error exception)
      | ok tempDic =>
          rw [inductionHypothesis]
          exact ⟨fun later => ⟨finishes_ok tempDic, later⟩, fun both => both.2⟩

theorem readParameters_finishes_iff (query : Option NSString) :
    Finishes (readParameters query) ↔ QueryDecodes query :=
  readSegments_finishes_iff emptyDictionary (componentsSeparatedBy ampersand query)

/-! ## The six methods -/

/-- The requests whose methods read the query. -/
inductive QueryAction
  | share
  | setColor
  | payAction
  deriving DecidableEq

namespace QueryAction

def host : QueryAction -> NSString
  | .share => text "shareClick"
  | .setColor => text "setColor"
  | .payAction => text "payAction"

/-- The method of `WebViewController` for the request. -/
def webViewMethod : QueryAction -> NSURL -> Outcome
  | .share => WebViewController.share
  | .setColor => WebViewController.changeBGColor
  | .payAction => WebViewController.payAction

/-- The method of `WKWebViewController` for the request. -/
def wkWebViewMethod : QueryAction -> NSURL -> Outcome
  | .share => WKWebViewController.share
  | .setColor => WKWebViewController.changeBGColor
  | .payAction => WKWebViewController.payAction

/-- The request with a query, as the page loads it. -/
def url (action : QueryAction) (query : Option NSString) : NSURL :=
  ⟨some (text "haleyaction"), some action.host, query⟩

end QueryAction

theorem webViewMethod_finishes_iff (action : QueryAction) (url : NSURL) :
    Finishes (action.webViewMethod url) ↔ Finishes (readParameters url.query) := by
  cases action with
  | share =>
      change Finishes (WebViewController.share url) ↔ _
      unfold WebViewController.share
      cases readParameters url.query <;> exact Iff.rfl
  | setColor =>
      change Finishes (WebViewController.changeBGColor url) ↔ _
      unfold WebViewController.changeBGColor
      cases readParameters url.query <;> exact Iff.rfl
  | payAction =>
      change Finishes (WebViewController.payAction url) ↔ _
      unfold WebViewController.payAction
      cases readParameters url.query <;> exact Iff.rfl

theorem wkWebViewMethod_finishes_iff (action : QueryAction) (url : NSURL) :
    Finishes (action.wkWebViewMethod url) ↔ Finishes (readParameters url.query) := by
  cases action with
  | share =>
      change Finishes (WKWebViewController.share url) ↔ _
      unfold WKWebViewController.share
      cases readParameters url.query <;> exact Iff.rfl
  | setColor =>
      change Finishes (WKWebViewController.changeBGColor url) ↔ _
      unfold WKWebViewController.changeBGColor
      cases readParameters url.query <;> exact Iff.rfl
  | payAction =>
      change Finishes (WKWebViewController.payAction url) ↔ _
      unfold WKWebViewController.payAction
      cases readParameters url.query <;> exact Iff.rfl

/-- Both dispatchers send the request to its method. -/
theorem handleCustomAction_url (action : QueryAction) (query : Option NSString) :
    WebViewController.handleCustomAction (action.url query) = action.webViewMethod (action.url query) ∧
      WKWebViewController.handleCustomAction (action.url query) =
        action.wkWebViewMethod (action.url query) := by
  unfold WebViewController.handleCustomAction WKWebViewController.handleCustomAction
  cases action with
  | share =>
      have host : (QueryAction.url .share query).host = some (text "shareClick") := rfl
      have scan : ¬ some (text "shareClick") = some (text "scanClick") := by decide +kernel
      rw [host, if_neg scan, if_pos rfl, if_neg scan, if_pos rfl]
      exact ⟨rfl, rfl⟩
  | setColor =>
      have host : (QueryAction.url .setColor query).host = some (text "setColor") := rfl
      have scan : ¬ some (text "setColor") = some (text "scanClick") := by decide +kernel
      have share : ¬ some (text "setColor") = some (text "shareClick") := by decide +kernel
      have location : ¬ some (text "setColor") = some (text "getLocation") := by decide +kernel
      rw [host, if_neg scan, if_neg share, if_neg location, if_pos rfl, if_neg scan, if_neg share,
        if_neg location, if_pos rfl]
      exact ⟨rfl, rfl⟩
  | payAction => exact handleCustomAction_payAction rfl

/-- The answer of each delegate to the request finishes if its method does. -/
theorem delegates_finish_iff (action : QueryAction) (query : Option NSString) :
    (Finishes (WebViewController.shouldStartLoadWithRequest (action.url query)) ↔
        Finishes (action.webViewMethod (action.url query))) ∧
      (Finishes (WKWebViewController.decidePolicyForNavigationAction (action.url query)) ↔
        Finishes (action.wkWebViewMethod (action.url query))) := by
  have dispatched := handleCustomAction_url action query
  have scheme : (action.url query).scheme = some (text "haleyaction") := rfl
  unfold WebViewController.shouldStartLoadWithRequest
    WKWebViewController.decidePolicyForNavigationAction
  rw [if_pos scheme, if_pos scheme, dispatched.1, dispatched.2]
  constructor
  · cases action.webViewMethod (action.url query) <;> exact Iff.rfl
  · cases action.wkWebViewMethod (action.url query) <;> exact Iff.rfl

/-- The loops of both methods for a request finish, and so do the answers of
both delegates, when they are called with the query. -/
structure LoopsFinish (action : QueryAction) (query : Option NSString) : Prop where
  webViewMethod : Finishes (action.webViewMethod (action.url query))
  wkWebViewMethod : Finishes (action.wkWebViewMethod (action.url query))
  webViewDelegate : Finishes (WebViewController.shouldStartLoadWithRequest (action.url query))
  wkWebViewDelegate :
    Finishes (WKWebViewController.decidePolicyForNavigationAction (action.url query))

/-- For every request and every query, no loop raises exactly when every
segment of the query decodes. -/
theorem loopsFinish_iff (action : QueryAction) (query : Option NSString) :
    LoopsFinish action query ↔ QueryDecodes query := by
  have delegates := delegates_finish_iff action query
  have webView := webViewMethod_finishes_iff action (action.url query)
  have wkWebView := wkWebViewMethod_finishes_iff action (action.url query)
  have read : Finishes (readParameters (action.url query).query) ↔ QueryDecodes query :=
    readParameters_finishes_iff query
  constructor
  · intro finished
    exact read.mp (webView.mp finished.webViewMethod)
  · intro decodes
    have finishedWebView := webView.mpr (read.mpr decodes)
    have finishedWKWebView := wkWebView.mpr (read.mpr decodes)
    exact ⟨finishedWebView, finishedWKWebView, delegates.1.mpr finishedWebView,
      delegates.2.mpr finishedWKWebView⟩

/-- An escape of a byte that UTF-8 does not have makes the loop of `share:`
insert nil. -/
theorem loops_raise_on_invalid_escape : ¬ LoopsFinish .share (some (text "title=%FF")) := by
  intro finished
  have raises : (WebViewController.share (QueryAction.url .share (some (text "title=%FF")))).isOk =
      false := by
    decide +kernel
  have contradiction := raises.symm.trans finished.webViewMethod
  cases contradiction

end Bridge
end HowBigDemo
