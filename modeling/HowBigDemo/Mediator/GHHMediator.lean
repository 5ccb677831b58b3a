import Mathlib.Data.List.Basic

namespace HowBigDemo
namespace Mediator

/-!
# The mediator

`GHHMediator` calls a method of a class by their names.  It finds the class
and the selector at run time and looks at the encoding of the return type:
for five encodings it builds an `NSInvocation`, sets the parameters as its
argument number two and wraps the result, and for all others it performs the
selector and takes the result for an object.

The table of classes is arbitrary.  A class may fail to initialize, and its
methods have an encoding, at most one explicit argument, which shows as a
colon in the selector, and a body whose values are of the encoded type.  What
the mediator does is recorded step by step.
-/

variable {Object : Type}

/-- What a type encoding stands for, as far as a caller has to know. -/
inductive ReturnKind
  | void
  | number
  | object
  | other
  deriving DecidableEq

/-- The qualifiers that may stand before an encoding, such as `V` for
`oneway` and `r` for `const`. -/
def qualifiers : List Char := ['r', 'n', 'N', 'o', 'O', 'R', 'V', 'A']

/-- The encodings of the integer, boolean and floating types. -/
def numberEncodings : List Char :=
  ['c', 'i', 's', 'l', 'q', 't', 'C', 'I', 'S', 'L', 'Q', 'T', 'B', 'f', 'd', 'D']

/-- An encoding without its qualifiers. -/
def unqualified (encoding : String) : List Char :=
  encoding.toList.dropWhile qualifiers.contains

/-- The kind of an encoding, from its first character behind the qualifiers.
Objects, blocks and classes can be used as objects. -/
def kindOf (encoding : String) : ReturnKind :=
  match unqualified encoding with
  | [] => .other
  | first :: _ =>
      if first = 'v' then .void
      else if numberEncodings.contains first then .number
      else if first = '@' ∨ first = '#' then .object
      else .other

/-- The processors that the app is built for, on which `@encode` differs. -/
inductive Architecture
  | arm64
  | armv7
  deriving DecidableEq

namespace Architecture

/-- `@encode(NSInteger)`. -/
def nsInteger : Architecture -> String
  | .arm64 => "q"
  | .armv7 => "i"

/-- `@encode(BOOL)`. -/
def bool : Architecture -> String
  | .arm64 => "B"
  | .armv7 => "c"

/-- `@encode(CGFloat)`. -/
def cgFloat : Architecture -> String
  | .arm64 => "d"
  | .armv7 => "f"

/-- `@encode(NSUInteger)`. -/
def nsUInteger : Architecture -> String
  | .arm64 => "Q"
  | .armv7 => "I"

/-- The encodings whose values are boxed. -/
def boxedEncodings (architecture : Architecture) : List String :=
  [architecture.nsInteger, architecture.bool, architecture.cgFloat, architecture.nsUInteger]

/-- The encodings for which an `NSInvocation` is built. -/
def invocationEncodings (architecture : Architecture) : List String :=
  "v" :: architecture.boxedEncodings

end Architecture

/-- A returned value.  Numbers are kept as their bits. -/
inductive Value (Object : Type)
  | void
  | number (bits : Nat)
  | object (object : Option Object)
  | other (bytes : List UInt8)

def Value.kind : Value Object -> ReturnKind
  | .void => .void
  | .number _ => .number
  | .object _ => .object
  | .other _ => .other

/-- An implemented method.  Its body returns, or raises an exception. -/
structure Method (Object : Type) where
  methodReturnType : String
  explicitArguments : Nat
  atMostOne : explicitArguments ≤ 1
  body : Option Object -> Except Object (Value Object)
  typed : forall argument value, body argument = .ok value ->
    value.kind = kindOf methodReturnType

/-- `numberOfArguments`, with the receiver and the selector. -/
def Method.numberOfArguments (method : Method Object) : Nat :=
  2 + method.explicitArguments

/-- What `[[targetClass alloc] init]` comes to: an instance, nil, or an
exception of the initializer. -/
inductive Initialization (Object : Type)
  | target
  | nil
  | raised (exception : Object)

/-- A class, with the methods to which its instances respond, by selector.  A
selector has a colon for each argument. -/
structure TargetClass (Object : Type) where
  init : Initialization Object
  methods : String -> Option (Method Object)
  colons : forall selector method, methods selector = some method ->
    method.explicitArguments = selector.toList.count ':'

/-- The classes of the program by name. -/
abbrev ClassTable (Object : Type) := String -> Option (TargetClass Object)

/-- `NSNumber`, with the encoding of the value it was made from. -/
structure NSNumber where
  objCType : List Char
  bits : Nat
  deriving DecidableEq

/-- What the caller of the mediator receives.  A value that is no object may
come back in the place of an object pointer. -/
inductive Reply (Object : Type)
  | nil
  | number (number : NSNumber)
  | object (object : Object)
  | reinterpreted

/-- An exception: the one of `NSInvocation` for an argument that is not there,
or one that the called method or the initializer of its class raises. -/
inductive NSException (Object : Type)
  | invalidArgument
  | raised (exception : Object)

/-- What the mediator does on the way. -/
inductive Step (Object : Type)
  | setArgument (index : Nat)
  | invoke (argument : Option Object)

/-- The steps of a call and what it returns or raises. -/
structure Answer (Object : Type) where
  steps : List (Step Object)
  outcome : Except (NSException Object) (Reply Object)

def Answer.nil : Answer Object :=
  ⟨[], .ok .nil⟩

namespace GHHMediator

/-- The bits of a returned number, for `getReturnValue:`.  The variable starts
with zero. -/
def getReturnValue : Value Object -> Nat
  | .number bits => bits
  | _ => 0

/-- Set the parameters at index two and invoke.  `setArgument:atIndex:`
raises for an index that the signature does not have. -/
def invocation (method : Method Object) (params : Option Object)
    (reply : Value Object -> Reply Object) : Answer Object :=
  if 2 < method.numberOfArguments then
    match method.body params with
    | .ok value => ⟨[.setArgument 2, .invoke params], .ok (reply value)⟩
    | .error exception => ⟨[.setArgument 2, .invoke params], .error (.raised exception)⟩
  else ⟨[.setArgument 2], .error .invalidArgument⟩

/-- The value of a performed selector is used as an object. -/
def objectPointer : Value Object -> Reply Object
  | .object (some object) => .object object
  | .object none => .nil
  | _ => .reinterpreted

/-- `performSelector:withObject:`.  A method without an explicit argument
ignores the one it is passed. -/
def performSelector (method : Method Object) (params : Option Object) : Answer Object :=
  match method.body params with
  | .ok value => ⟨[.invoke params], .ok (objectPointer value)⟩
  | .error exception => ⟨[.invoke params], .error (.raised exception)⟩

/-- `@(result)`, of a variable declared with the type that was compared. -/
def boxed (encoding : String) (result : Value Object) : Reply Object :=
  .number ⟨encoding.toList, getReturnValue result⟩

/-- `safePerformAction:target:params:` from the signature of the method on. -/
def performMethod (architecture : Architecture) (methodSig : Method Object)
    (params : Option Object) : Answer Object :=
  let retType := methodSig.methodReturnType
  if retType = "v" then invocation methodSig params fun _ => .nil
  else if retType = architecture.nsInteger then
    invocation methodSig params (boxed architecture.nsInteger)
  else if retType = architecture.bool then
    invocation methodSig params (boxed architecture.bool)
  else if retType = architecture.cgFloat then
    invocation methodSig params (boxed architecture.cgFloat)
  else if retType = architecture.nsUInteger then
    invocation methodSig params (boxed architecture.nsUInteger)
  else performSelector methodSig params

/-- `safePerformAction:target:params:`. -/
def safePerformAction (architecture : Architecture) (action : String) (target : TargetClass Object)
    (params : Option Object) : Answer Object :=
  match target.methods action with
  | none => .nil
  | some methodSig => performMethod architecture methodSig params

/-- The conversion `%@` of a string. -/
def formatObject : Option String -> String
  | none => "(null)"
  | some object => object

def targetClassString (targetName : Option String) : String :=
  "Target" ++ formatObject targetName

def actionString (actionName : Option String) : String :=
  "Action_" ++ formatObject actionName

/-- `performTarget:withAction:params:shouldCacheTarget:`.  Messages to a class
that does not exist return nil, and the last argument has no effect. -/
def performTarget (architecture : Architecture) (classes : ClassTable Object)
    (targetName actionName : Option String) (params : Option Object) (_shouldCacheTarget : Bool) :
    Answer Object :=
  match classes (targetClassString targetName) with
  | none => .nil
  | some target =>
    match target.init with
    | .raised exception => ⟨[], .error (.raised exception)⟩
    | .nil => .nil
    | .target =>
      if (target.methods (actionString actionName)).isSome then
        safePerformAction architecture (actionString actionName) target params
      else .nil

end GHHMediator

/-! ## What a call promises -/

/-- The arguments of the invocations among some steps. -/
def invocations (steps : List (Step Object)) : List (Option Object) :=
  steps.filterMap fun
    | .invoke argument => some argument
    | .setArgument _ => none

/-- The method that the names stand for, if there is one. -/
def methodNamed (classes : ClassTable Object) (targetName actionName : Option String) :
    Option (Method Object) :=
  (classes (GHHMediator.targetClassString targetName)).bind
    fun target => target.methods (GHHMediator.actionString actionName)

/-- The reply that belongs to a returned value: nothing for `void`, the number
or the object itself, and for other values anything that is no object
pointer. -/
def RepliesWith (method : Method Object) : Value Object -> Reply Object -> Prop
  | .void, reply => reply = .nil
  | .number bits, reply => reply = .number ⟨unqualified method.methodReturnType, bits⟩
  | .object (some object), reply => reply = .object object
  | .object none, reply => reply = .nil
  | .other _, reply => reply ≠ .reinterpreted

/-- What the mediator promises of a call of an existing method. -/
structure PerformsWell (method : Method Object) (params : Option Object) (answer : Answer Object) :
    Prop where
  /-- It raises no exception of its own. -/
  noOwnException : answer.outcome ≠ .error .invalidArgument
  /-- The method is invoked exactly once. -/
  invokedOnce : invocations answer.steps = [params]
  /-- The reply belongs to the returned value. -/
  replies : forall value, method.body params = .ok value ->
    Exists fun reply => answer.outcome = .ok reply ∧ RepliesWith method value reply
  /-- An exception of the method passes through. -/
  passesThrough : forall exception, method.body params = .error exception ->
    answer.outcome = .error (.raised exception)
  /-- No value that is not an object is treated as an object pointer. -/
  noMisreading : answer.outcome ≠ .ok .reinterpreted
  /-- No argument is set that the signature does not have. -/
  argumentsExist : forall index, .setArgument index ∈ answer.steps ->
    index < method.numberOfArguments

/-- What the mediator promises of a call: without a class or a method it does
nothing and returns nil, and otherwise it performs the method well. -/
structure Fulfils (classes : ClassTable Object) (targetName actionName : Option String)
    (params : Option Object) (answer : Answer Object) : Prop where
  absent : methodNamed classes targetName actionName = none ->
    answer.steps = [] ∧ answer.outcome = .ok .nil
  present : forall method, methodNamed classes targetName actionName = some method ->
    PerformsWell method params answer

/-- The mediator treats the method well: the method returns an object, or it
has an argument and one of the five encodings, or it has none of these and
returns nothing because it raises. -/
def Supported (architecture : Architecture) (method : Method Object) (params : Option Object) :
    Prop :=
  kindOf method.methodReturnType = .object ∨
    (method.methodReturnType ∈ architecture.invocationEncodings ∧ method.explicitArguments = 1) ∨
    (method.methodReturnType ∉ architecture.invocationEncodings ∧
      Exists fun exception => method.body params = .error exception)

/-- The named class, if there is one, gives an instance whose named method, if
there is one, is supported; or it gives nil, and has no such method. -/
def SupportsCall (architecture : Architecture) (classes : ClassTable Object)
    (targetName actionName : Option String) (params : Option Object) : Prop :=
  forall target, classes (GHHMediator.targetClassString targetName) = some target ->
    (target.init = .target ∧ forall method,
      target.methods (GHHMediator.actionString actionName) = some method ->
        Supported architecture method params) ∨
    (target.init = .nil ∧ target.methods (GHHMediator.actionString actionName) = none)

/-! ## Which calls keep the promise -/

namespace GHHMediator

section Calls

variable (architecture : Architecture) {classes : ClassTable Object}
variable {targetName actionName : Option String} {target : TargetClass Object}

theorem methodNamed_of_class (isClass : classes (targetClassString targetName) = some target) :
    methodNamed classes targetName actionName = target.methods (actionString actionName) := by
  unfold methodNamed
  rw [isClass]
  rfl

/-- Without the class, nothing is done. -/
theorem performTarget_of_noClass (noClass : classes (targetClassString targetName) = none)
    (params : Option Object) (shouldCacheTarget : Bool) :
    performTarget architecture classes targetName actionName params shouldCacheTarget = .nil := by
  rw [performTarget, noClass]

/-- Without an instance, nothing is done either. -/
theorem performTarget_of_nil (isClass : classes (targetClassString targetName) = some target)
    (isNil : target.init = .nil) (params : Option Object) (shouldCacheTarget : Bool) :
    performTarget architecture classes targetName actionName params shouldCacheTarget = .nil := by
  simp only [performTarget, isClass, isNil]

theorem performTarget_of_raised (isClass : classes (targetClassString targetName) = some target)
    {exception : Object} (raises : target.init = .raised exception) (params : Option Object)
    (shouldCacheTarget : Bool) :
    performTarget architecture classes targetName actionName params shouldCacheTarget =
      ⟨[], .error (.raised exception)⟩ := by
  simp only [performTarget, isClass, raises]

/-- With an instance, a call performs the method that the names stand for. -/
theorem performTarget_of_some (isClass : classes (targetClassString targetName) = some target)
    (isTarget : target.init = .target) {method : Method Object}
    (isMethod : target.methods (actionString actionName) = some method) (params : Option Object)
    (shouldCacheTarget : Bool) :
    performTarget architecture classes targetName actionName params shouldCacheTarget =
      performMethod architecture method params := by
  simp only [performTarget, isClass, isTarget, isMethod, Option.isSome_some, if_true,
    safePerformAction]

theorem performTarget_of_none (isClass : classes (targetClassString targetName) = some target)
    (isTarget : target.init = .target)
    (noMethod : target.methods (actionString actionName) = none) (params : Option Object)
    (shouldCacheTarget : Bool) :
    performTarget architecture classes targetName actionName params shouldCacheTarget = .nil := by
  simp only [performTarget, isClass, isTarget, noMethod, Option.isSome_none, Bool.false_eq_true,
    if_false]

end Calls

theorem boxedEncodings_numbers (architecture : Architecture) :
    forall encoding, encoding ∈ architecture.boxedEncodings ->
      kindOf encoding = .number ∧ unqualified encoding = encoding.toList := by
  cases architecture <;> decide +kernel

theorem performMethod_of_boxed {architecture : Architecture} {method : Method Object}
    (listed : method.methodReturnType ∈ architecture.boxedEncodings) (params : Option Object) :
    performMethod architecture method params =
      invocation method params (boxed method.methodReturnType) := by
  have notVoid : method.methodReturnType ≠ "v" := by
    intro isVoid
    have isNumber := (boxedEncodings_numbers architecture _ listed).1
    rw [isVoid] at isNumber
    exact absurd isNumber (by decide +kernel)
  unfold performMethod
  change (if method.methodReturnType = "v" then _ else _) = _
  rw [if_neg notVoid]
  by_cases isInteger : method.methodReturnType = architecture.nsInteger
  · rw [if_pos isInteger, isInteger]
  rw [if_neg isInteger]
  by_cases isBool : method.methodReturnType = architecture.bool
  · rw [if_pos isBool, isBool]
  rw [if_neg isBool]
  by_cases isFloat : method.methodReturnType = architecture.cgFloat
  · rw [if_pos isFloat, isFloat]
  rw [if_neg isFloat]
  by_cases isUnsigned : method.methodReturnType = architecture.nsUInteger
  · rw [if_pos isUnsigned, isUnsigned]
  · simp only [Architecture.boxedEncodings, List.mem_cons, List.not_mem_nil, isInteger, isBool,
      isFloat, isUnsigned, or_self] at listed

theorem performMethod_of_void (architecture : Architecture) {method : Method Object}
    (isVoid : method.methodReturnType = "v") (params : Option Object) :
    performMethod architecture method params = invocation method params fun _ => .nil := by
  unfold performMethod
  change (if method.methodReturnType = "v" then _ else _) = _
  rw [if_pos isVoid]

theorem performMethod_of_unlisted {architecture : Architecture} {method : Method Object}
    (unlisted : method.methodReturnType ∉ architecture.invocationEncodings)
    (params : Option Object) :
    performMethod architecture method params = performSelector method params := by
  simp only [Architecture.invocationEncodings, Architecture.boxedEncodings, List.mem_cons,
    List.not_mem_nil, or_false, not_or] at unlisted
  rcases unlisted with ⟨notVoid, notInteger, notBool, notFloat, notUnsigned⟩
  unfold performMethod
  change (if method.methodReturnType = "v" then _ else _) = _
  rw [if_neg notVoid, if_neg notInteger, if_neg notBool, if_neg notFloat, if_neg notUnsigned]

/-- A method is performed well by an answer that invokes it once and relays
what it does, if the reply is chosen well. -/
theorem performsWell_of_relayed {method : Method Object} {params : Option Object}
    {answer : Answer Object} {reply : Value Object -> Reply Object}
    (invokedOnce : invocations answer.steps = [params])
    (argumentsExist : forall index, .setArgument index ∈ answer.steps ->
      index < method.numberOfArguments)
    (returns : forall value, method.body params = .ok value -> answer.outcome = .ok (reply value))
    (raises : forall exception, method.body params = .error exception ->
      answer.outcome = .error (.raised exception))
    (belongs : forall value, method.body params = .ok value ->
      RepliesWith method value (reply value) ∧ reply value ≠ .reinterpreted) :
    PerformsWell method params answer := by
  refine ⟨?_, invokedOnce, ?_, raises, ?_, argumentsExist⟩
  · intro invalid
    cases returned : method.body params with
    | ok value =>
        rw [returns value returned] at invalid
        cases invalid
    | error exception =>
        rw [raises exception returned] at invalid
        cases invalid
  · intro value returned
    exact ⟨reply value, returns value returned, (belongs value returned).1⟩
  · intro misread
    cases returned : method.body params with
    | ok value =>
        rw [returns value returned] at misread
        exact (belongs value returned).2 (Except.ok.inj misread)
    | error exception =>
        rw [raises exception returned] at misread
        cases misread

/-- With an argument to set, the method is performed well if the reply is
chosen well. -/
theorem performsWell_invocation {method : Method Object} {params : Option Object}
    {reply : Value Object -> Reply Object} (hasArgument : method.explicitArguments = 1)
    (belongs : forall value, method.body params = .ok value ->
      RepliesWith method value (reply value) ∧ reply value ≠ .reinterpreted) :
    PerformsWell method params (invocation method params reply) := by
  have inSignature : 2 < method.numberOfArguments := by
    rw [Method.numberOfArguments, hasArgument]
    decide
  have steps : (invocation method params reply).steps = [.setArgument 2, .invoke params] := by
    unfold invocation
    rw [if_pos inSignature]
    cases method.body params <;> rfl
  refine performsWell_of_relayed ?_ ?_ ?_ ?_ belongs
  · rw [steps]
    rfl
  · intro index listed
    rw [steps] at listed
    rcases List.mem_cons.mp listed with isFirst | isLater
    · cases isFirst
      exact inSignature
    · cases List.mem_singleton.mp isLater
  · intro value returned
    rw [invocation, if_pos inSignature, returned]
  · intro exception raised
    rw [invocation, if_pos inSignature, raised]

/-- Without an argument to set, `setArgument:atIndex:` raises. -/
theorem not_performsWell_invocation {method : Method Object} {params : Option Object}
    {reply : Value Object -> Reply Object} (noArgument : method.explicitArguments ≠ 1) :
    ¬ PerformsWell method params (invocation method params reply) := by
  intro performs
  have outside : ¬ 2 < method.numberOfArguments := by
    have bound := method.atMostOne
    unfold Method.numberOfArguments
    omega
  apply performs.noOwnException
  unfold invocation
  rw [if_neg outside]

/-- Performing the selector is right if no value other than an object comes
back. -/
theorem performsWell_performSelector {method : Method Object} {params : Option Object}
    (onlyObjects : forall value, method.body params = .ok value -> value.kind = .object) :
    PerformsWell method params (performSelector method params) := by
  have steps : (performSelector method params).steps = [.invoke params] := by
    unfold performSelector
    cases method.body params <;> rfl
  refine @performsWell_of_relayed _ _ _ _ objectPointer ?_ ?_ ?_ ?_ ?_
  · rw [steps]
    rfl
  · intro index listed
    rw [steps] at listed
    cases List.mem_singleton.mp listed
  · intro value returned
    rw [performSelector, returned]
  · intro exception raised
    rw [performSelector, raised]
  · intro value returned
    have isObject := onlyObjects value returned
    cases value with
    | object object => cases object <;> exact ⟨rfl, fun impossible => nomatch impossible⟩
    | void => cases isObject
    | number bits => cases isObject
    | other bytes => cases isObject

/-- Performing the selector is right for a method that returns an object, and
for one that returns nothing because it raises. -/
theorem performsWell_performSelector_iff (method : Method Object) (params : Option Object) :
    PerformsWell method params (performSelector method params) ↔
      kindOf method.methodReturnType = .object ∨
        Exists fun exception => method.body params = .error exception := by
  constructor
  · intro performs
    cases returned : method.body params with
    | error exception => exact Or.inr ⟨exception, rfl⟩
    | ok value =>
        left
        rw [← method.typed params value returned]
        have noMisreading := performs.noMisreading
        rw [performSelector, returned] at noMisreading
        cases value with
        | object object => rfl
        | void => exact absurd rfl noMisreading
        | number bits => exact absurd rfl noMisreading
        | other bytes => exact absurd rfl noMisreading
  · rintro (isObject | ⟨exception, raises⟩)
    · apply performsWell_performSelector
      intro value returned
      exact (method.typed params value returned).trans isObject
    · apply performsWell_performSelector
      intro value returned
      cases raises.symm.trans returned

theorem belongs_of_void {method : Method Object} {params : Option Object}
    (isVoid : kindOf method.methodReturnType = .void) {value : Value Object}
    (returned : method.body params = .ok value) :
    RepliesWith method value .nil ∧ (.nil : Reply Object) ≠ .reinterpreted := by
  have typed := method.typed params value returned
  rw [isVoid] at typed
  cases value with
  | void => exact ⟨rfl, fun impossible => nomatch impossible⟩
  | number bits => cases typed
  | object object => cases typed
  | other bytes => cases typed

theorem belongs_of_number {method : Method Object} {params : Option Object}
    (isNumber : kindOf method.methodReturnType = .number)
    (plain : unqualified method.methodReturnType = method.methodReturnType.toList)
    {value : Value Object} (returned : method.body params = .ok value) :
    RepliesWith method value (boxed method.methodReturnType value) ∧
      boxed method.methodReturnType value ≠ .reinterpreted := by
  have typed := method.typed params value returned
  rw [isNumber] at typed
  cases value with
  | number bits =>
      refine ⟨?_, fun impossible => nomatch impossible⟩
      change Reply.number _ = Reply.number _
      rw [plain]
      rfl
  | void => cases typed
  | object object => cases typed
  | other bytes => cases typed

/-- For each of the five encodings an invocation is built, and its reply
belongs to the returned value. -/
theorem performMethod_of_listed {architecture : Architecture} {method : Method Object}
    (listed : method.methodReturnType ∈ architecture.invocationEncodings)
    (params : Option Object) :
    Exists fun reply : Value Object -> Reply Object =>
      performMethod architecture method params = invocation method params reply ∧
        kindOf method.methodReturnType ≠ .object ∧
        forall value, method.body params = .ok value ->
          RepliesWith method value (reply value) ∧ reply value ≠ .reinterpreted := by
  rcases List.mem_cons.mp listed with isVoid | isBoxed
  · have isVoidKind : kindOf method.methodReturnType = .void := by
      rw [isVoid]
      decide +kernel
    refine ⟨_, performMethod_of_void architecture isVoid params, ?_, ?_⟩
    · rw [isVoidKind]
      decide
    · intro value returned
      exact belongs_of_void isVoidKind returned
  · have number := boxedEncodings_numbers architecture _ isBoxed
    refine ⟨_, performMethod_of_boxed isBoxed params, ?_, ?_⟩
    · rw [number.1]
      decide
    · intro value returned
      exact belongs_of_number number.1 number.2 returned

/-- A method is performed well exactly if it is supported. -/
theorem performsWell_iff (architecture : Architecture) (method : Method Object)
    (params : Option Object) :
    PerformsWell method params (performMethod architecture method params) ↔
      Supported architecture method params := by
  by_cases listed : method.methodReturnType ∈ architecture.invocationEncodings
  · rcases performMethod_of_listed listed params with ⟨reply, same, noObject, belongs⟩
    rw [same]
    constructor
    · intro performs
      by_cases hasArgument : method.explicitArguments = 1
      · exact Or.inr (Or.inl ⟨listed, hasArgument⟩)
      · exact absurd performs (not_performsWell_invocation hasArgument)
    · rintro (isObject | ⟨_, hasArgument⟩ | ⟨unlisted, _⟩)
      · exact absurd isObject noObject
      · exact performsWell_invocation hasArgument belongs
      · exact absurd listed unlisted
  · rw [performMethod_of_unlisted listed, performsWell_performSelector_iff]
    constructor
    · rintro (isObject | raises)
      · exact Or.inl isObject
      · exact Or.inr (Or.inr ⟨listed, raises⟩)
    · rintro (isObject | ⟨isListed, _⟩ | ⟨_, raises⟩)
      · exact Or.inl isObject
      · exact absurd isListed listed
      · exact Or.inr raises

/-- A call that does nothing keeps the promise if there is no method. -/
theorem fulfils_nil_iff (classes : ClassTable Object) (targetName actionName : Option String)
    (params : Option Object) :
    Fulfils classes targetName actionName params .nil ↔
      methodNamed classes targetName actionName = none := by
  constructor
  · intro fulfils
    cases named : methodNamed classes targetName actionName with
    | none => rfl
    | some method => cases (fulfils.present method named).invokedOnce
  · intro noMethod
    refine ⟨fun _ => ⟨rfl, rfl⟩, fun method named => ?_⟩
    rw [noMethod] at named
    cases named

end GHHMediator

/-! ## The class of the app -/

namespace TargetManager

/-- `Action_RootViewController`, given the view controller that it makes. -/
def actionRootViewController (viewController : Object) : Method Object where
  methodReturnType := "@"
  explicitArguments := 0
  atMostOne := Nat.zero_le 1
  body := fun _ => .ok (.object (some viewController))
  typed := by
    intro argument value same
    cases same
    have isObject : kindOf "@" = .object := by decide +kernel
    exact isObject.symm

/-- `TargetManager` with one more action. -/
def withAction (viewController : Object) (selector : String) (method : Method Object)
    (colons : method.explicitArguments = selector.toList.count ':') : TargetClass Object where
  init := .target
  methods := fun name =>
    if name = "Action_RootViewController" then some (actionRootViewController viewController)
    else if name = selector then some method
    else none
  colons := by
    intro name found same
    split at same
    · next isRoot =>
        cases same
        rw [isRoot]
        change 0 = List.count ':' "Action_RootViewController".toList
        decide +kernel
    · split at same
      · next isAction =>
          cases same
          rw [isAction]
          exact colons
      · cases same

end TargetManager

namespace GHHMediator

/-- A program whose only target is `TargetManager` with one more action. -/
def oneTarget (target : TargetClass Object) : ClassTable Object :=
  fun className => if className = "TargetManager" then some target else none

/-- An action that returns the number three. -/
def numberAction (encoding : String) (isNumber : kindOf encoding = .number)
    (explicitArguments : Nat) (atMostOne : explicitArguments ≤ 1) : Method Nat where
  methodReturnType := encoding
  explicitArguments := explicitArguments
  atMostOne := atMostOne
  body := fun _ => .ok (.number 3)
  typed := by
    intro argument value same
    cases same
    exact isNumber.symm

/-- `Action_unread`, an `NSInteger` without an argument. -/
def integerTarget : TargetClass Nat :=
  TargetManager.withAction 0 "Action_unread" (numberAction "q" (by decide +kernel) 0 (by decide))
    (by decide +kernel)

/-- `Action_unread:`, an `int` with an argument. -/
def intTarget : TargetClass Nat :=
  TargetManager.withAction 0 "Action_unread:" (numberAction "i" (by decide +kernel) 1 (by decide))
    (by decide +kernel)

end GHHMediator
end Mediator
end HowBigDemo
