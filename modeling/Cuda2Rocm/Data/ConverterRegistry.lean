import Cuda2Rocm.Foundation.Table

/-!
# The registry of converters

Converters are callables of the application, kept under a pair of types: the one they
convert from and the one they convert to.  A conversion looks the pair up that consists
of the dynamic type of its source and the type asked for.  The conversion to a static
type casts what the callable returns to that type; the one to a `type_index` does not.
-/

namespace Cuda2Rocm
namespace Data
namespace ConverterRegistry

open Foundation

variable {type object space stream world exception : Type _}

/-- What the language tells of types and objects: the dynamic type of an object, whether
`dynamic_cast` takes an object of the one type to the other, and the name of a type. -/
structure Rtti (type object : Type _) where
  typeOf : object -> type
  castable : type -> type -> Bool
  name : type -> String

/-- `converter_fn`: it throws or returns a pointer, null or to an object, and may do
anything to the world outside of the registry. -/
abbrev Converter (object space stream world exception : Type _) :=
  object -> space -> stream -> world -> Except exception (Option object) × world

/-- `converters_`. -/
abbrev Registry (type object space stream world exception : Type _) :=
  Table (type × type) (Converter object space stream world exception)

/-- What a conversion throws: an error of its own, or what the callable threw. -/
inductive Failure (exception : Type _) where
  | noConverter (text : String)
  | wrongType (text : String)
  | thrown (e : exception)
deriving DecidableEq, Repr

def noConverterText (source target : String) : String :=
  "cuCascade: no converter registered for " ++ source ++ " -> " ++ target

def wrongTypeText (source target : String) : String :=
  "cuCascade: converter returned wrong type for " ++ source ++ " -> " ++ target

section Functions

variable [DecidableEq type]

/-- `register_converter`; the lambda around the callable hands its result on. -/
def registerConverter (registry : Registry type object space stream world exception)
    (source target : type) (fn : Converter object space stream world exception) :
    Registry type object space stream world exception :=
  registry.insert (source, target) fn

def unregisterConverter (registry : Registry type object space stream world exception)
    (source target : type) : Registry type object space stream world exception :=
  registry.erase (source, target)

def hasConverterFor (rtti : Rtti type object)
    (registry : Registry type object space stream world exception) (source : object)
    (target : type) : Bool :=
  (registry.lookup (rtti.typeOf source, target)).isSome

/-- `convert<TargetType>`. -/
def convertTyped (rtti : Rtti type object)
    (registry : Registry type object space stream world exception) (source : object)
    (target : type) (targetSpace : space) (on : stream) (w : world) :
    Except (Failure exception) object × world :=
  match registry.lookup (rtti.typeOf source, target) with
  | none =>
      (.error (.noConverter
        (noConverterText (rtti.name (rtti.typeOf source)) (rtti.name target))), w)
  | some fn =>
      match fn source targetSpace on w with
      | (.error e, w') => (.error (.thrown e), w')
      | (.ok none, w') =>
          (.error (.wrongType
            (wrongTypeText (rtti.name (rtti.typeOf source)) (rtti.name target))), w')
      | (.ok (some result), w') =>
          if rtti.castable (rtti.typeOf result) target then (.ok result, w')
          else
            (.error (.wrongType
              (wrongTypeText (rtti.name (rtti.typeOf source)) (rtti.name target))), w')

/-- `convert` to a `type_index`. -/
def convert (rtti : Rtti type object)
    (registry : Registry type object space stream world exception) (source : object)
    (target : type) (targetSpace : space) (on : stream) (w : world) :
    Except (Failure exception) (Option object) × world :=
  match registry.lookup (rtti.typeOf source, target) with
  | none =>
      (.error (.noConverter
        (noConverterText (rtti.name (rtti.typeOf source)) (rtti.name target))), w)
  | some fn =>
      match fn source targetSpace on w with
      | (.error e, w') => (.error (.thrown e), w')
      | (.ok result, w') => (.ok result, w')

end Functions

/-!
# Histories
-/

/-- The calls that change a registry. -/
inductive Event (type object space stream world exception : Type _) where
  | registerConverter (source target : type)
      (fn : Converter object space stream world exception)
  | unregisterConverter (source target : type)
  | clear

namespace Event

/-- The call may change what is registered for the pair. -/
def Touches : Event type object space stream world exception -> type × type -> Prop
  | .registerConverter source target _, pair => (source, target) = pair
  | .unregisterConverter source target, pair => (source, target) = pair
  | .clear, _ => True

end Event

/-- The callable that was registered last for exactly this pair, and is still there. -/
def MostRecent (events : List (Event type object space stream world exception))
    (pair : type × type) (fn : Converter object space stream world exception) : Prop :=
  exists first rest, events = first ++ .registerConverter pair.1 pair.2 fn :: rest ∧
    forall e, e ∈ rest -> ¬ e.Touches pair

theorem not_mostRecent_nil {pair : type × type}
    {fn : Converter object space stream world exception} : ¬ MostRecent [] pair fn := by
  rintro ⟨first, rest, hevents, _⟩
  simp at hevents

/-- A last call that touches the pair decides what is the most recent. -/
theorem mostRecent_concat_of_touches
    {events : List (Event type object space stream world exception)}
    {e : Event type object space stream world exception} {pair : type × type}
    {fn : Converter object space stream world exception} (htouches : e.Touches pair) :
    MostRecent (events ++ [e]) pair fn <-> e = .registerConverter pair.1 pair.2 fn := by
  constructor
  · rintro ⟨first, rest, hevents, hrest⟩
    rcases List.eq_nil_or_concat rest with rfl | ⟨before, last, rfl⟩
    · have hlast := List.append_inj_right' hevents rfl
      exact List.singleton_inj.mp hlast
    · rw [List.concat_eq_append, ← List.cons_append, ← List.append_assoc] at hevents
      have hlast := List.singleton_inj.mp (List.append_inj_right' hevents rfl)
      exact absurd (hlast ▸ htouches) (hrest last (by simp))
  · rintro rfl
    exact ⟨events, [], rfl, fun e he => absurd he List.not_mem_nil⟩

/-- A last call that does not touch the pair changes nothing about it. -/
theorem mostRecent_concat_of_not_touches
    {events : List (Event type object space stream world exception)}
    {e : Event type object space stream world exception} {pair : type × type}
    {fn : Converter object space stream world exception} (htouches : ¬ e.Touches pair) :
    MostRecent (events ++ [e]) pair fn <-> MostRecent events pair fn := by
  constructor
  · rintro ⟨first, rest, hevents, hrest⟩
    rcases List.eq_nil_or_concat rest with rfl | ⟨before, last, rfl⟩
    · have hlast := List.singleton_inj.mp (List.append_inj_right' hevents rfl)
      rw [hlast] at htouches
      exact absurd rfl htouches
    · rw [List.concat_eq_append, ← List.cons_append, ← List.append_assoc] at hevents
      refine ⟨first, before, List.append_inj_left' hevents rfl, fun e he => ?_⟩
      exact hrest e (by simp [he])
  · rintro ⟨first, rest, rfl, hrest⟩
    refine ⟨first, rest ++ [e], by simp, fun e' he' => ?_⟩
    rcases List.mem_append.mp he' with hold | hnew
    · exact hrest e' hold
    · rw [List.mem_singleton.mp hnew]
      exact htouches

variable [DecidableEq type]

/-- One call. -/
def apply (registry : Registry type object space stream world exception) :
    Event type object space stream world exception ->
      Registry type object space stream world exception
  | .registerConverter source target fn => registerConverter registry source target fn
  | .unregisterConverter source target => unregisterConverter registry source target
  | .clear => Table.empty

/-- The registry after these calls. -/
def after (events : List (Event type object space stream world exception)) :
    Registry type object space stream world exception :=
  events.foldl apply Table.empty

theorem after_concat (events : List (Event type object space stream world exception))
    (e : Event type object space stream world exception) :
    after (events ++ [e]) = apply (after events) e := by
  rw [after, List.foldl_append]
  rfl

/-- A registry holds what was registered last. -/
theorem lookup_after_iff (events : List (Event type object space stream world exception))
    (pair : type × type) (fn : Converter object space stream world exception) :
    (after events).lookup pair = some fn <-> MostRecent events pair fn := by
  -- the induction is on the last call
  induction events using List.reverseRecOn with
  | nil => exact iff_of_false (by simp [after]) not_mostRecent_nil
  | append_singleton events e ih =>
      rw [after_concat]
      by_cases htouches : e.Touches pair
      · rw [mostRecent_concat_of_touches htouches]
        cases e with
        | registerConverter source target fn' =>
            cases htouches
            simp [apply, registerConverter]
        | unregisterConverter source target =>
            cases htouches
            simp [apply, unregisterConverter]
        | clear => simp [apply]
      · rw [mostRecent_concat_of_not_touches htouches, ← ih]
        cases e with
        | registerConverter source target fn' =>
            have hne : pair ≠ (source, target) := fun h => htouches h.symm
            rw [apply, registerConverter, Table.lookup_insert_ne hne]
        | unregisterConverter source target =>
            have hne : pair ≠ (source, target) := fun h => htouches h.symm
            rw [apply, unregisterConverter, Table.lookup_erase_ne hne]
        | clear => exact absurd trivial htouches

/-!
# The two conversions
-/

/-- Neither conversion finds a converter. -/
theorem convert_of_none {rtti : Rtti type object}
    {registry : Registry type object space stream world exception} {source : object}
    {target : type} (h : registry.lookup (rtti.typeOf source, target) = none)
    (targetSpace : space) (on : stream) (w : world) :
    exists text,
      convertTyped rtti registry source target targetSpace on w =
        (.error (.noConverter text), w) ∧
      convert rtti registry source target targetSpace on w =
        (.error (.noConverter text), w) := by
  refine ⟨noConverterText (rtti.name (rtti.typeOf source)) (rtti.name target), ?_, ?_⟩
  · rw [convertTyped, h]
  · rw [convert, h]

theorem found_of_some {rtti : Rtti type object}
    {registry : Registry type object space stream world exception} {source : object}
    {target : type} {fn : Converter object space stream world exception}
    (h : registry.lookup (rtti.typeOf source, target) = some fn)
    (targetSpace : space) (on : stream) (w : world) (text : String) :
    (convertTyped rtti registry source target targetSpace on w).1 ≠
        .error (.noConverter text) ∧
      (convert rtti registry source target targetSpace on w).1 ≠
        .error (.noConverter text) := by
  rw [convertTyped, convert, h]
  simp only
  rcases fn source targetSpace on w with ⟨e | (_ | result), w'⟩
  · simp
  · simp
  · constructor
    · simp only
      split <;> simp
    · simp

/-- What the typed and the indexed conversion have in common, on a registry of which the
history is known. -/
structure ConvertsAlike (rtti : Rtti type object)
    (events : List (Event type object space stream world exception)) (source : object)
    (target : type) (targetSpace : space) (on : stream) (w : world) : Prop where
  alike :
    (exists failure failure',
      (convertTyped rtti (after events) source target targetSpace on w).1 = .error failure ∧
      (convert rtti (after events) source target targetSpace on w).1 = .error failure') ∨
    (exists fn result, MostRecent events (rtti.typeOf source, target) fn ∧
      (fn source targetSpace on w).1 = .ok (some result) ∧
      rtti.castable (rtti.typeOf result) target = true ∧
      (convertTyped rtti (after events) source target targetSpace on w).1 = .ok result ∧
      (convert rtti (after events) source target targetSpace on w).1 = .ok (some result))
  lackingTyped :
    (exists text, (convertTyped rtti (after events) source target targetSpace on w).1 =
      .error (.noConverter text)) <->
        hasConverterFor rtti (after events) source target = false
  lacking :
    (exists text, (convert rtti (after events) source target targetSpace on w).1 =
      .error (.noConverter text)) <->
        hasConverterFor rtti (after events) source target = false

theorem lacking_iff {rtti : Rtti type object}
    {registry : Registry type object space stream world exception} {source : object}
    {target : type} {targetSpace : space} {on : stream} {w : world} :
    ((exists text, (convertTyped rtti registry source target targetSpace on w).1 =
        .error (.noConverter text)) <->
          hasConverterFor rtti registry source target = false) ∧
    ((exists text, (convert rtti registry source target targetSpace on w).1 =
        .error (.noConverter text)) <->
          hasConverterFor rtti registry source target = false) := by
  unfold hasConverterFor
  cases h : registry.lookup (rtti.typeOf source, target) with
  | none =>
      rcases convert_of_none h targetSpace on w with ⟨text, htyped, hindexed⟩
      rw [htyped, hindexed]
      exact ⟨iff_of_true ⟨text, rfl⟩ rfl, iff_of_true ⟨text, rfl⟩ rfl⟩
  | some fn =>
      have hfound := found_of_some h targetSpace on w
      constructor
      · refine iff_of_false ?_ (by simp)
        rintro ⟨text, htext⟩
        exact (hfound text).1 htext
      · refine iff_of_false ?_ (by simp)
        rintro ⟨text, htext⟩
        exact (hfound text).2 htext

/--
The two conversions agree exactly if the callable registered last for the pair, where it
returns, returns an object that can be cast to the target type.
-/
theorem converts_alike_iff (rtti : Rtti type object)
    (events : List (Event type object space stream world exception)) (source : object)
    (target : type) (targetSpace : space) (on : stream) (w : world) :
    ConvertsAlike rtti events source target targetSpace on w <->
      forall fn, MostRecent events (rtti.typeOf source, target) fn ->
        forall returned, (fn source targetSpace on w).1 = .ok returned ->
          exists result, returned = some result ∧
            rtti.castable (rtti.typeOf result) target = true := by
  constructor
  · intro halike fn hfn returned hreturned
    have hlookup := (lookup_after_iff events _ fn).mpr hfn
    have hindexed : (convert rtti (after events) source target targetSpace on w).1 =
        .ok returned := by
      rw [convert, hlookup]
      simp only
      rcases hcall : fn source targetSpace on w with ⟨outcome, w'⟩
      rw [hcall] at hreturned
      simp only at hreturned
      rw [hreturned]
    rcases halike.alike with ⟨failure, failure', _, herror⟩ | ⟨fn', result, _, _, hcast, _, hok⟩
    · rw [hindexed] at herror
      cases herror
    · rw [hindexed] at hok
      exact ⟨result, by injection hok, hcast⟩
  · intro hreturns
    refine ⟨?_, lacking_iff.1, lacking_iff.2⟩
    cases h : (after events).lookup (rtti.typeOf source, target) with
    | none =>
        rcases convert_of_none h targetSpace on w with ⟨text, htyped, hindexed⟩
        exact Or.inl ⟨_, _, congrArg Prod.fst htyped, congrArg Prod.fst hindexed⟩
    | some fn =>
        have hfn := (lookup_after_iff events _ fn).mp h
        rcases hcall : fn source targetSpace on w with ⟨outcome, w'⟩
        cases outcome with
        | error e =>
            left
            refine ⟨.thrown e, .thrown e, ?_, ?_⟩
            · rw [convertTyped, h]
              simp only [hcall]
            · rw [convert, h]
              simp only [hcall]
        | ok returned =>
            rcases hreturns fn hfn returned (congrArg Prod.fst hcall) with ⟨result, rfl, hcast⟩
            right
            refine ⟨fn, result, hfn, congrArg Prod.fst hcall, hcast, ?_, ?_⟩
            · rw [convertTyped, h]
              simp only [hcall, hcast, if_true]
            · rw [convert, h]
              simp only [hcall]

/-!
# A callable that returns null
-/

/-- Objects that are their own types, none of which can be cast to another. -/
def sameType : Rtti Nat Nat :=
  { typeOf := id, castable := fun a b => decide (a = b), name := fun _ => "type" }

/-- The callable of the registry's own test. -/
def returnsNull : Converter Nat Unit Unit Unit Unit := fun _ _ _ w => (.ok none, w)

/-- Under a callable that returns null the typed conversion throws, the indexed one
returns null. -/
theorem null_returned :
    (convertTyped sameType (after [.registerConverter 0 1 returnsNull]) 0 1 () () ()).1 =
        .error (.wrongType "cuCascade: converter returned wrong type for type -> type") ∧
      (convert sameType (after [.registerConverter 0 1 returnsNull]) 0 1 () () ()).1 =
        .ok none ∧
      ¬ ConvertsAlike sameType [.registerConverter 0 1 returnsNull] 0 1 () () () := by
  have htyped : (convertTyped sameType (after [.registerConverter 0 1 returnsNull])
      0 1 () () ()).1 =
        .error (.wrongType "cuCascade: converter returned wrong type for type -> type") := rfl
  have hindexed : (convert sameType (after [.registerConverter 0 1 returnsNull])
      0 1 () () ()).1 = .ok none := rfl
  refine ⟨htyped, hindexed, fun halike => ?_⟩
  rcases halike.alike with ⟨_, _, _, herror⟩ | ⟨_, _, _, _, _, hok, _⟩
  · rw [hindexed] at herror
    cases herror
  · rw [htyped] at hok
    cases hok

end ConverterRegistry
end Data
end Cuda2Rocm
