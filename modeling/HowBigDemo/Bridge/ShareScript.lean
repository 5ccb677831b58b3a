import HowBigDemo.Bridge.Controllers
import HowBigDemo.Library.ScriptLiteral

namespace HowBigDemo
namespace Bridge

open Library

/-!
# The script of a share request

`share:` writes three decoded values between single quotes and evaluates the
result in the page.  The values come from the page's own URL and may contain
any character.  `share_script_isCall_iff` says for which values the script
is the intended call: those that a JavaScript literal can hold as they are.
-/

/-- The script that both controllers build from three values. -/
def shareScript (title content link : NSString) : NSString :=
  text "shareResult('" ++ title ++ text "','" ++ content ++ text "','" ++ link ++ text "')"

/-- With all three parameters present, both controllers evaluate this script
and nothing else. -/
theorem share_eq (url : NSURL) {parameters : NSDictionary} {title content link : NSString}
    (read : readParameters url.query = .ok parameters)
    (hasTitle : parameters (text "title") = some title)
    (hasContent : parameters (text "content") = some content)
    (hasLink : parameters (text "url") = some link) :
    WebViewController.share url = .ok [.evaluate (shareScript title content link)] ∧
      WKWebViewController.share url = .ok [.evaluate (shareScript title content link)] := by
  unfold WebViewController.share WKWebViewController.share
  simp only [read, hasTitle, hasContent, hasLink]
  exact ⟨rfl, rfl⟩

/-- The script is the unescaped call of the library. -/
theorem shareScript_eq (title content link : NSString) :
    shareScript title content link = text "shareResult" ++
      Script.leftParenthesis :: Script.unescapedArguments [title, content, link] := by
  have opening : text "shareResult('" = text "shareResult" ++ [Script.leftParenthesis, Script.quote] := by
    decide +kernel
  have between : text "','" = [Script.quote, Script.comma, Script.quote] := by decide +kernel
  have closing : text "')" = [Script.quote, Script.rightParenthesis] := by decide +kernel
  simp only [shareScript, opening, between, closing, Script.unescapedArguments,
    List.append_assoc, List.cons_append, List.nil_append]

theorem shareScript_isCall_iff (edition : Edition) (title content link : NSString) :
    Script.IsCall edition (text "shareResult") [title, content, link]
        (shareScript title content link) ↔
      forall value, value ∈ [title, content, link] -> Script.Inert edition value := by
  have named : text "shareResult" = 115 :: text "hareResult" := by decide +kernel
  rw [shareScript_eq]
  exact Script.isCall_unescaped_iff named (by decide) (by decide) (List.cons_ne_nil _ _)

/-- For every share request whose three parameters can be decoded, either
controller evaluates one script, and that script is a call of `shareResult`
with exactly the three decoded values if and only if each of them can stand
in a single-quoted literal as it is. -/
theorem share_script_isCall_iff (edition : Edition) (url : NSURL) (parameters : NSDictionary)
    (title content link : NSString)
    (read : readParameters url.query = .ok parameters)
    (hasTitle : parameters (text "title") = some title)
    (hasContent : parameters (text "content") = some content)
    (hasLink : parameters (text "url") = some link) :
    Exists fun script =>
      WebViewController.share url = .ok [.evaluate script] ∧
      WKWebViewController.share url = .ok [.evaluate script] ∧
      (Script.IsCall edition (text "shareResult") [title, content, link] script ↔
        forall value, value ∈ [title, content, link] -> Script.Inert edition value) := by
  have evaluated := share_eq url read hasTitle hasContent hasLink
  exact ⟨shareScript title content link, evaluated.1, evaluated.2,
    shareScript_isCall_iff edition title content link⟩

/-- A request with the three values of one letter each. -/
theorem share_script_isCall_iff_letters :
    Exists fun script =>
      WebViewController.share
          ⟨some (text "haleyaction"), some (text "shareClick"),
            some (text "title=a&content=b&url=c")⟩ =
        .ok [.evaluate script] ∧
      WKWebViewController.share
          ⟨some (text "haleyaction"), some (text "shareClick"),
            some (text "title=a&content=b&url=c")⟩ =
        .ok [.evaluate script] ∧
      (Script.IsCall .sinceES2019 (text "shareResult") [text "a", text "b", text "c"] script ↔
        forall value, value ∈ [text "a", text "b", text "c"] ->
          Script.Inert .sinceES2019 value) :=
  share_script_isCall_iff .sinceES2019
    ⟨some (text "haleyaction"), some (text "shareClick"), some (text "title=a&content=b&url=c")⟩
    (parametersOf (some (text "title=a&content=b&url=c"))) (text "a") (text "b") (text "c")
    (readParameters_of_isOk (by decide +kernel)) (by decide +kernel) (by decide +kernel)
    (by decide +kernel)

/-- An escaped apostrophe in the title ends its literal: the script that both
controllers evaluate is not a call with the three decoded values. -/
theorem share_script_broken_by_apostrophe :
    parametersOf (some (text "title=it%27s&content=c&url=u")) (text "title") =
        some (text "it's") ∧
      WebViewController.share
          ⟨some (text "haleyaction"), some (text "shareClick"),
            some (text "title=it%27s&content=c&url=u")⟩ =
        .ok [.evaluate (text "shareResult('it's','c','u')")] ∧
      WKWebViewController.share
          ⟨some (text "haleyaction"), some (text "shareClick"),
            some (text "title=it%27s&content=c&url=u")⟩ =
        .ok [.evaluate (text "shareResult('it's','c','u')")] ∧
      ¬ Script.IsCall .sinceES2019 (text "shareResult") [text "it's", text "c", text "u"]
        (text "shareResult('it's','c','u')") := by
  have title : parametersOf (some (text "title=it%27s&content=c&url=u")) (text "title") =
      some (text "it's") := by
    decide +kernel
  have content : parametersOf (some (text "title=it%27s&content=c&url=u")) (text "content") =
      some (text "c") := by
    decide +kernel
  have link : parametersOf (some (text "title=it%27s&content=c&url=u")) (text "url") =
      some (text "u") := by
    decide +kernel
  have evaluated := share_eq ⟨some (text "haleyaction"), some (text "shareClick"),
      some (text "title=it%27s&content=c&url=u")⟩
    (readParameters_of_isOk (by decide +kernel)) title content link
  have script : shareScript (text "it's") (text "c") (text "u") =
      text "shareResult('it's','c','u')" := by
    decide +kernel
  rw [script] at evaluated
  refine ⟨title, evaluated.1, evaluated.2, ?_⟩
  rw [← script, shareScript_isCall_iff]
  decide +kernel

end Bridge
end HowBigDemo
