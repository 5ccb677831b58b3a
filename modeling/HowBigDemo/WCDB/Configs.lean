import HowBigDemo.Library.EventSystem
import Mathlib.Data.List.Nodup
import Mathlib.Logic.Function.Basic

namespace HowBigDemo
namespace WCDB

open Library

/-!
# Configurations of the handles of a pool

`Configs` is the list of the configurations that are applied to every handle,
in the order of their numbers.  `setConfig` rebuilds the list with a new
configuration under a name, with a number of its own or in the place of the
old one.

The list stays in order and keeps one configuration under a name.  A call with
a number leaves out the configuration that it inserts before, so it keeps the
other configurations only under a condition that the last theorem makes exact.
-/

def INT_MAX : Int := 2147483647

def INT_MIN : Int := -2147483648

/-- Small numbers in front. -/
abbrev Order : Type := { order : Int // INT_MIN ≤ order ∧ order ≤ INT_MAX }

/-- A null function is a place holder that is skipped. -/
structure ConfigWrap (Name Config : Type) where
  name : Name
  invoke : Option Config
  order : Order

abbrev Configs (Name Config : Type) := List (ConfigWrap Name Config)

inductive ConfigCall (Name Config : Type)
  | setConfigOrdered (name : Name) (config : Option Config) (order : Order)
  | setConfig (name : Name) (config : Option Config)

def ConfigCall.name {Name Config : Type} : ConfigCall Name Config -> Name
  | .setConfigOrdered name _ _ | .setConfig name _ => name

def ConfigCall.config {Name Config : Type} : ConfigCall Name Config -> Option Config
  | .setConfigOrdered _ config _ | .setConfig _ config => config

namespace Configs

variable {Name Config : Type} [DecidableEq Name]

/-- The loop of `setConfig` with a number, and the `push_back` after it. -/
def insertLoop (name : Name) (config : Option Config) (order : Order) (inserted : Bool) :
    Configs Name Config -> Configs Name Config
  | [] => if inserted then [] else [⟨name, config, order⟩]
  | wrap :: rest =>
    if !inserted && decide (order.val < wrap.order.val) then
      ⟨name, config, order⟩ :: insertLoop name config order true rest
    else if name ≠ wrap.name then wrap :: insertLoop name config order inserted rest
    else insertLoop name config order inserted rest

/-- The loop of `setConfig` without a number. -/
def replaceLoop (name : Name) (config : Option Config) (inserted : Bool) :
    Configs Name Config -> Configs Name Config
  | [] => if inserted then [] else [⟨name, config, ⟨INT_MAX, by decide⟩⟩]
  | wrap :: rest =>
    if name ≠ wrap.name then wrap :: replaceLoop name config inserted rest
    else ⟨name, config, wrap.order⟩ :: replaceLoop name config true rest

def call (configs : Configs Name Config) : ConfigCall Name Config -> Configs Name Config
  | .setConfigOrdered name config order => insertLoop name config order false configs
  | .setConfig name config => replaceLoop name config false configs

/-- The configuration under a name, which may be a place holder. -/
def lookup (configs : Configs Name Config) (name : Name) : Option (Option Config) :=
  (configs.find? fun wrap => decide (wrap.name = name)).map ConfigWrap.invoke

/-- A place holder reads like a name that is not there. -/
def getConfigByName (configs : Configs Name Config) (name : Name) : Option Config :=
  (configs.lookup name).join

/-- The calls of `setConfig` on one pool. -/
def system : EventSystem (Configs Name Config) (ConfigCall Name Config) Unit where
  step configs event := (configs.call event, [])

/-! ## The list stays in order -/

/-- The numbers do not decrease and every name stands once. -/
structure WellFormed (configs : Configs Name Config) : Prop where
  sorted : (configs.map fun wrap => wrap.order.val).Pairwise (fun first second => first ≤ second)
  distinct : (configs.map ConfigWrap.name).Nodup

/-- After the insertion the loop only leaves out the name. -/
theorem insertLoop_true (name : Name) (config : Option Config) (order : Order)
    (configs : Configs Name Config) :
    insertLoop name config order true configs =
      configs.filter fun wrap => decide (name ≠ wrap.name) := by
  induction configs with
  | nil => rfl
  | cons wrap rest inductionHypothesis =>
      unfold insertLoop
      rw [if_neg (by simp), inductionHypothesis, List.filter_cons]
      simp only [decide_eq_true_eq]

theorem mem_insertLoop {name : Name} {config : Option Config} {order : Order}
    {configs : Configs Name Config} {wrap : ConfigWrap Name Config}
    (listed : wrap ∈ insertLoop name config order false configs) :
    wrap = ⟨name, config, order⟩ ∨ wrap ∈ configs ∧ name ≠ wrap.name := by
  induction configs with
  | nil => exact Or.inl (List.mem_singleton.mp listed)
  | cons head rest inductionHypothesis =>
      unfold insertLoop at listed
      split at listed
      · rcases List.mem_cons.mp listed with isNew | kept
        · exact Or.inl isNew
        · rw [insertLoop_true] at kept
          rcases List.mem_filter.mp kept with ⟨old, differs⟩
          exact Or.inr ⟨List.mem_cons_of_mem _ old, of_decide_eq_true differs⟩
      · split at listed
        · next differs =>
            rcases List.mem_cons.mp listed with same | later
            · exact Or.inr ⟨same ▸ List.mem_cons_self, same ▸ differs⟩
            · exact (inductionHypothesis later).imp_right fun old =>
                ⟨List.mem_cons_of_mem _ old.1, old.2⟩
        · exact (inductionHypothesis listed).imp_right fun old =>
            ⟨List.mem_cons_of_mem _ old.1, old.2⟩

theorem insertLoop_sorted (name : Name) (config : Option Config) (order : Order)
    {configs : Configs Name Config}
    (sorted : configs.Pairwise fun first second => first.order.val ≤ second.order.val) :
    (insertLoop name config order false configs).Pairwise
      fun first second => first.order.val ≤ second.order.val := by
  induction configs with
  | nil => exact List.pairwise_singleton _ _
  | cons wrap rest inductionHypothesis =>
      rcases List.pairwise_cons.mp sorted with ⟨first, later⟩
      unfold insertLoop
      split
      · next inserts =>
          have below : order.val < wrap.order.val := by simpa using inserts
          rw [insertLoop_true]
          refine List.pairwise_cons.mpr ⟨?_, later.filter _⟩
          intro other listed
          have atLeast := first other (List.mem_filter.mp listed).1
          change order.val ≤ other.order.val
          omega
      · next stays =>
          have above : wrap.order.val ≤ order.val := by
            simp only [Bool.not_false, Bool.true_and, decide_eq_true_eq, Int.not_lt] at stays
            exact stays
          split
          · refine List.pairwise_cons.mpr ⟨?_, inductionHypothesis later⟩
            intro other listed
            rcases mem_insertLoop listed with isNew | old
            · rw [isNew]
              exact above
            · exact first other old.1
          · exact inductionHypothesis later

theorem insertLoop_distinct (name : Name) (config : Option Config) (order : Order)
    {configs : Configs Name Config} (distinct : (configs.map ConfigWrap.name).Nodup) :
    ((insertLoop name config order false configs).map ConfigWrap.name).Nodup := by
  induction configs with
  | nil => exact List.nodup_singleton _
  | cons wrap rest inductionHypothesis =>
      rcases List.nodup_cons.mp distinct with ⟨apart, later⟩
      unfold insertLoop
      split
      · rw [insertLoop_true]
        refine List.nodup_cons.mpr ⟨?_, ?_⟩
        · intro listed
          rcases List.mem_map.mp listed with ⟨other, kept, same⟩
          exact of_decide_eq_true (List.mem_filter.mp kept).2 same.symm
        · exact later.sublist (List.filter_sublist.map _)
      · split
        · next differs =>
            refine List.nodup_cons.mpr ⟨?_, inductionHypothesis later⟩
            intro listed
            rcases List.mem_map.mp listed with ⟨other, there, same⟩
            rcases mem_insertLoop there with isNew | old
            · rw [isNew] at same
              exact differs same
            · exact apart (List.mem_map.mpr ⟨other, old.1, same⟩)
        · exact inductionHypothesis later

/-- Replacing keeps the numbers, and a new name comes last. -/
theorem replaceLoop_order (name : Name) (config : Option Config) (inserted : Bool)
    (configs : Configs Name Config) :
    (replaceLoop name config inserted configs).map (fun wrap => wrap.order.val) =
      configs.map (fun wrap => wrap.order.val) ++
        if inserted || configs.any (fun wrap => decide (name = wrap.name)) then [] else [INT_MAX] := by
  induction configs generalizing inserted with
  | nil => cases inserted <;> rfl
  | cons wrap rest inductionHypothesis =>
      unfold replaceLoop
      split
      · next differs =>
          rw [List.map_cons, inductionHypothesis, List.map_cons, List.any_cons,
            decide_eq_false differs, Bool.false_or]
          rfl
      · next same =>
          rw [List.map_cons, inductionHypothesis, List.map_cons, List.any_cons,
            decide_eq_true (not_not.mp same), Bool.true_or, Bool.or_true]
          rfl

theorem replaceLoop_name (name : Name) (config : Option Config) (inserted : Bool)
    (configs : Configs Name Config) :
    (replaceLoop name config inserted configs).map ConfigWrap.name =
      configs.map ConfigWrap.name ++
        if inserted || configs.any (fun wrap => decide (name = wrap.name)) then [] else [name] := by
  induction configs generalizing inserted with
  | nil => cases inserted <;> rfl
  | cons wrap rest inductionHypothesis =>
      unfold replaceLoop
      split
      · next differs =>
          rw [List.map_cons, inductionHypothesis, List.map_cons, List.any_cons,
            decide_eq_false differs, Bool.false_or]
          rfl
      · next same =>
          rw [List.map_cons, inductionHypothesis, List.map_cons, List.any_cons,
            decide_eq_true (not_not.mp same), Bool.true_or, Bool.or_true]
          exact congrArg (fun first => first :: _) (not_not.mp same)

/-- Every call keeps the list in order. -/
theorem WellFormed.call {configs : Configs Name Config} (wellFormed : WellFormed configs)
    (event : ConfigCall Name Config) : WellFormed (configs.call event) := by
  cases event with
  | setConfigOrdered name config order =>
      refine ⟨?_, insertLoop_distinct name config order wellFormed.distinct⟩
      exact List.pairwise_map.mpr
        (insertLoop_sorted name config order (List.pairwise_map.mp wellFormed.sorted))
  | setConfig name config =>
      constructor
      · change ((replaceLoop name config false configs).map _).Pairwise _
        rw [replaceLoop_order]
        split
        · rw [List.append_nil]
          exact wellFormed.sorted
        · refine List.pairwise_append.mpr ⟨wellFormed.sorted, List.pairwise_singleton _ _, ?_⟩
          intro first listed last isLast
          rcases List.mem_map.mp listed with ⟨wrap, _, rfl⟩
          rw [List.mem_singleton.mp isLast]
          exact wrap.order.property.2
      · change ((replaceLoop name config false configs).map _).Nodup
        rw [replaceLoop_name]
        split
        · rw [List.append_nil]
          exact wellFormed.distinct
        · next absent =>
            refine List.nodup_append.mpr ⟨wellFormed.distinct, List.nodup_singleton _, ?_⟩
            rintro old listed new isNew rfl
            rw [List.mem_singleton] at isNew
            subst isNew
            rcases List.mem_map.mp listed with ⟨wrap, there, same⟩
            exact absent (Bool.or_eq_true_iff.mpr (Or.inr
              (List.any_eq_true.mpr ⟨wrap, there, decide_eq_true same.symm⟩)))

/-! ## What the names stand for -/

theorem lookup_cons (wrap : ConfigWrap Name Config) (rest : Configs Name Config) (name : Name) :
    lookup (wrap :: rest) name = if wrap.name = name then some wrap.invoke else lookup rest name := by
  unfold lookup
  rw [List.find?_cons]
  by_cases same : wrap.name = name
  · rw [decide_eq_true same, if_pos same]
    rfl
  · rw [decide_eq_false same, if_neg same]

theorem lookup_eq_none {configs : Configs Name Config} {name : Name}
    (absent : name ∉ configs.map ConfigWrap.name) : lookup configs name = none := by
  induction configs with
  | nil => rfl
  | cons wrap rest inductionHypothesis =>
      rw [List.map_cons, List.mem_cons, not_or] at absent
      rw [lookup_cons, if_neg (Ne.symm absent.1), inductionHypothesis absent.2]

theorem lookup_isSome {configs : Configs Name Config} {wrap : ConfigWrap Name Config}
    (listed : wrap ∈ configs) : (lookup configs wrap.name).isSome = true := by
  induction configs with
  | nil => cases listed
  | cons head rest inductionHypothesis =>
      rw [lookup_cons]
      split
      · rfl
      · next differs =>
          rcases List.mem_cons.mp listed with same | later
          · exact absurd (congrArg ConfigWrap.name same).symm differs
          · exact inductionHypothesis later

theorem lookup_filter {name other : Name} (differs : other ≠ name) (configs : Configs Name Config) :
    lookup (configs.filter fun wrap => decide (name ≠ wrap.name)) other = lookup configs other := by
  induction configs with
  | nil => rfl
  | cons wrap rest inductionHypothesis =>
      rw [List.filter_cons]
      split
      · rw [lookup_cons, lookup_cons, inductionHypothesis]
      · next same =>
          have dropped : name = wrap.name := by simpa using same
          have elsewhere : wrap.name ≠ other := fun here => differs (here.symm.trans dropped.symm)
          rw [inductionHypothesis, lookup_cons, if_neg elsewhere]

/-- Where the loop of `setConfig` with a number inserts. -/
def displaced (order : Order) (configs : Configs Name Config) : Option (ConfigWrap Name Config) :=
  configs.find? fun wrap => decide (order.val < wrap.order.val)

/-- The name set reads the new configuration. -/
theorem lookup_insertLoop_self (name : Name) (config : Option Config) (order : Order)
    (configs : Configs Name Config) :
    lookup (insertLoop name config order false configs) name = some config := by
  induction configs with
  | nil => exact (lookup_cons _ _ _).trans (if_pos rfl)
  | cons wrap rest inductionHypothesis =>
      unfold insertLoop
      split
      · exact (lookup_cons _ _ _).trans (if_pos rfl)
      · split
        · next differs => rw [lookup_cons, if_neg (Ne.symm differs), inductionHypothesis]
        · exact inductionHypothesis

/-- Another name reads what it did, unless it is the one displaced. -/
theorem lookup_insertLoop_other {name other : Name} (differs : other ≠ name) (config : Option Config)
    (order : Order) {configs : Configs Name Config} (distinct : (configs.map ConfigWrap.name).Nodup) :
    lookup (insertLoop name config order false configs) other =
      if (displaced order configs).map ConfigWrap.name = some other then none
      else lookup configs other := by
  induction configs with
  | nil => exact (lookup_cons _ _ _).trans (if_neg (Ne.symm differs))
  | cons wrap rest inductionHypothesis =>
      rcases List.nodup_cons.mp distinct with ⟨apart, later⟩
      unfold insertLoop displaced
      rw [List.find?_cons]
      split
      · next inserts =>
          have below : decide (order.val < wrap.order.val) = true := by simpa using inserts
          rw [below, insertLoop_true, lookup_cons, if_neg (Ne.symm differs), lookup_filter differs]
          simp only [Option.map_some, Option.some.injEq]
          split
          · next same => exact lookup_eq_none (same ▸ apart)
          · next kept => rw [lookup_cons, if_neg kept]
      · next stays =>
          have above : decide (order.val < wrap.order.val) = false := by
            simpa only [Bool.not_false, Bool.true_and, Bool.not_eq_true] using stays
          rw [above]
          simp only
          have inRest := inductionHypothesis later
          unfold displaced at inRest
          split
          · rw [lookup_cons, lookup_cons, inRest]
            split
            · next here =>
                rw [if_neg]
                intro displaces
                rcases Option.map_eq_some_iff.mp displaces with ⟨found, isFound, same⟩
                exact apart (List.mem_map.mpr ⟨found, List.mem_of_find?_eq_some isFound,
                  same.trans here.symm⟩)
            · rfl
          · next same =>
              have dropped : name = wrap.name := not_not.mp same
              have elsewhere : wrap.name ≠ other := fun here => differs (here.symm.trans dropped.symm)
              rw [inRest, lookup_cons, if_neg elsewhere]

/-- Replacing changes what its name stands for and nothing else. -/
theorem lookup_replaceLoop (name other : Name) (config : Option Config)
    (configs : Configs Name Config) :
    lookup (replaceLoop name config false configs) other =
      if other = name then some config else lookup configs other := by
  have afterwards : forall rest : Configs Name Config, other ≠ name ->
      lookup (replaceLoop name config true rest) other = lookup rest other := by
    intro rest differs
    induction rest with
    | nil => rfl
    | cons wrap rest inductionHypothesis =>
        unfold replaceLoop
        split
        · rw [lookup_cons, lookup_cons, inductionHypothesis]
        · next same =>
            have here : name = wrap.name := not_not.mp same
            rw [lookup_cons, if_neg (Ne.symm differs), inductionHypothesis, lookup_cons,
              if_neg (here ▸ Ne.symm differs)]
  induction configs with
  | nil =>
      refine (lookup_cons _ _ _).trans ?_
      simp only [eq_comm]
  | cons wrap rest inductionHypothesis =>
      unfold replaceLoop
      split
      · next differs =>
          rw [lookup_cons, inductionHypothesis, lookup_cons]
          by_cases here : wrap.name = other
          · rw [if_pos here, if_pos here, if_neg (fun same => differs (same.symm.trans here.symm))]
          · rw [if_neg here, if_neg here]
      · next same =>
          have here : name = wrap.name := not_not.mp same
          rw [lookup_cons]
          by_cases isName : other = name
          · rw [if_pos isName.symm, if_pos isName]
          · rw [if_neg (Ne.symm isName), if_neg isName, afterwards rest isName, lookup_cons,
              if_neg (here ▸ Ne.symm isName)]

/-! ## Runs -/

theorem lookup_call_self (configs : Configs Name Config) (event : ConfigCall Name Config) :
    lookup (configs.call event) event.name = some event.config := by
  cases event with
  | setConfigOrdered name config order => exact lookup_insertLoop_self name config order configs
  | setConfig name config => exact (lookup_replaceLoop name name config configs).trans (if_pos rfl)

/-- After every run of calls the configurations are in the order of their
numbers, one under each name, and the name that was set last reads what it
was set to. -/
theorem wellFormed_run {configs : Configs Name Config} (wellFormed : WellFormed configs)
    (events : List (ConfigCall Name Config)) (event : ConfigCall Name Config) :
    WellFormed (system.run configs (events ++ [event])) ∧
      getConfigByName (system.run configs (events ++ [event])) event.name = event.config := by
  have holds : WellFormed (system.run configs events) :=
    system.run_invariant WellFormed (fun _ event wellFormed => wellFormed.call event) wellFormed events
  rw [EventSystem.run_concat]
  refine ⟨holds.call event, ?_⟩
  unfold getConfigByName
  change (lookup ((system.run configs events).call event) event.name).join = _
  rw [lookup_call_self]
  rfl

/-- What the names should stand for: each call changes one. -/
def dictionary : EventSystem (Name -> Option (Option Config)) (ConfigCall Name Config) Unit where
  step read event := (Function.update read event.name (some event.config), [])

/-- The call inserts at the end or before the configuration that it replaces. -/
def Spares (configs : Configs Name Config) : ConfigCall Name Config -> Prop
  | .setConfigOrdered name _ order =>
    forall wrap, displaced order configs = some wrap -> wrap.name = name
  | .setConfig _ _ => True

/-- One call changes one name exactly if it spares the others. -/
theorem lookup_call_iff {configs : Configs Name Config} (wellFormed : WellFormed configs)
    (event : ConfigCall Name Config) :
    lookup (configs.call event) = Function.update (lookup configs) event.name (some event.config) ↔
      Spares configs event := by
  cases event with
  | setConfig name config =>
      refine iff_of_true ?_ trivial
      funext other
      change lookup (replaceLoop name config false configs) other =
        Function.update (lookup configs) name (some config) other
      rw [lookup_replaceLoop, Function.update_apply]
  | setConfigOrdered name config order =>
      change lookup (insertLoop name config order false configs) =
        Function.update (lookup configs) name (some config) ↔ _
      constructor
      · intro follows wrap displaces
        by_contra differs
        have reads := congrFun follows wrap.name
        rw [Function.update_of_ne differs, lookup_insertLoop_other differs config order wellFormed.distinct,
          displaces, if_pos (Option.map_some ..)] at reads
        have present := lookup_isSome (List.mem_of_find?_eq_some displaces)
        rw [← reads] at present
        cases present
      · intro spares
        funext other
        by_cases here : other = name
        · rw [here, Function.update_self, lookup_insertLoop_self]
        · rw [Function.update_of_ne here, lookup_insertLoop_other here config order wellFormed.distinct,
            if_neg]
          intro displaces
          rcases Option.map_eq_some_iff.mp displaces with ⟨wrap, isDisplaced, same⟩
          exact here (same.symm.trans (spares wrap isDisplaced))

/-- At every point of a run each name stands for what it was last set to,
exactly if no call with a number inserts before a configuration of another
name: such a call loses that configuration. -/
theorem reads_last_set_iff {configs : Configs Name Config} (wellFormed : WellFormed configs)
    (events : List (ConfigCall Name Config)) :
    (forall earlier, earlier <+: events ->
      lookup (system.run configs earlier) = dictionary.run (lookup configs) earlier) ↔
      system.Along Spares configs events := by
  have preserved : forall (state : Configs Name Config) event, WellFormed state ->
      WellFormed (system.next state event) := fun _ event wellFormed => wellFormed.call event
  have commutes : forall (state : Configs Name Config) event, WellFormed state ->
      (lookup (system.next state event) = dictionary.next (lookup state) event ↔ Spares state event) :=
    fun _ event wellFormed => lookup_call_iff wellFormed event
  exact EventSystem.prefixes_iff_along preserved commutes wellFormed events

/-! ## The configurations of a database -/

/-- What the functions of `Database::defaultConfigs` do. -/
inductive Default
  | trace
  | cipher
  | basic
  | checkpoint
  deriving DecidableEq

/-- `Database::defaultConfigs`, with place holders for the rest. -/
def defaultConfigs : Configs String Default :=
  [⟨"trace", some .trace, ⟨0, by decide⟩⟩, ⟨"cipher", some .cipher, ⟨1, by decide⟩⟩,
    ⟨"basic", some .basic, ⟨2, by decide⟩⟩, ⟨"synchronous", none, ⟨3, by decide⟩⟩,
    ⟨"checkpoint", some .checkpoint, ⟨4, by decide⟩⟩, ⟨"tokenize", none, ⟨5, by decide⟩⟩]

theorem defaultConfigs_wellFormed : WellFormed defaultConfigs :=
  ⟨by decide, by decide⟩

/-- The checkpoints get a number in front of the cipher, and with it its place. -/
theorem wellFormed_run_of_cipher :
    WellFormed (system.run defaultConfigs
        ([.setConfig "cipher" (some .cipher)] ++
          [.setConfigOrdered "checkpoint" (some .checkpoint) ⟨0, by decide⟩])) ∧
      getConfigByName (system.run defaultConfigs
        ([.setConfig "cipher" (some .cipher)] ++
          [.setConfigOrdered "checkpoint" (some .checkpoint) ⟨0, by decide⟩])) "checkpoint" =
        some .checkpoint :=
  wellFormed_run defaultConfigs_wellFormed [.setConfig "cipher" (some .cipher)]
    (.setConfigOrdered "checkpoint" (some .checkpoint) ⟨0, by decide⟩)

/-- A configuration between the cipher and the basic one takes the place of
the basic one. -/
theorem reads_last_set_of_numbered :
    ¬ forall earlier, earlier <+: [ConfigCall.setConfigOrdered "custom" (some Default.trace) ⟨1, by decide⟩] ->
      lookup (system.run defaultConfigs earlier) = dictionary.run (lookup defaultConfigs) earlier := by
  rw [reads_last_set_iff defaultConfigs_wellFormed]
  rintro ⟨spares, _⟩
  have same := spares ⟨"basic", some .basic, ⟨2, by decide⟩⟩ rfl
  exact absurd same (by decide)

end Configs
end WCDB
end HowBigDemo
