import LogPipeline.Plugin
import LogPipeline.Proofs.Value.Entries
import LogPipeline.Proofs.Value.Json

namespace LogPipeline

/-!
# Equality by structure

Two doubles are equal as numbers if they are the same double or the two zeros,
and if they are numbers at all.  So equality by structure says no more and no
less than that two values are the same up to the signs of zeros, and that no
double in them, at any depth, is not a number.  A value with every zero made
positive stands for all the values that equal it; what is computed from it is
computed alike from equal values.

So the laws of this equality are those of comparing such normal forms.  It is
symmetric and transitive, and what differs from itself is what holds a double
that is no number.
-/

/-! ## Comparing normal forms -/

/-- The laws of an equality under which what is no number equals nothing: it is
symmetric and transitive, and a thing equals itself exactly if all doubles that
belong to it are numbers. -/
structure IsEquality {α : Type} (same : α → α → Bool) (reals : α → List Binary64) : Prop where
  symm : ∀ left right, same left right = same right left
  trans : ∀ first second third,
    same first second = true → same second third = true → same first third = true
  self_iff : ∀ item, same item item = true ↔ ∀ number ∈ reals item, number.isNaN = false

/-- A comparison of normal forms that tells apart what is flawed is such an equality. -/
theorem IsEquality.of_normal {α : Type} {same : α → α → Bool} {reals : α → List Binary64}
    {normal : α → α} {flawed : α → Bool}
    (same_iff : ∀ {left right},
      same left right = true ↔ normal left = normal right ∧ flawed left = false)
    (flawed_normal : ∀ item, flawed (normal item) = flawed item)
    (flawed_iff : ∀ {item},
      flawed item = true ↔ ∃ number ∈ reals item, number.isNaN = true) :
    IsEquality same reals where
  symm := by
    intro left right
    rw [Bool.eq_iff_iff, same_iff, same_iff, eq_comm (a := normal right)]
    apply and_congr_right
    intro alike
    rw [← flawed_normal left, alike, flawed_normal]
  trans := by
    intro first second third same later
    rw [same_iff] at same later ⊢
    exact ⟨same.1.trans later.1, same.2⟩
  self_iff := by
    intro item
    rw [same_iff, and_iff_right rfl, ← Bool.not_eq_true, flawed_iff]
    simp only [not_exists, not_and, Bool.not_eq_true]

namespace Binary64

/-- A double with the positive zero in the place of the negative one. -/
def normal (number : Binary64) : Binary64 :=
  if number.isZero then ⟨0⟩ else number

theorem normal_of_isZero {number : Binary64} (zero : number.isZero = true) :
    number.normal = ⟨0⟩ :=
  if_pos zero

theorem normal_of_not_isZero {number : Binary64} (notZero : number.isZero = false) :
    number.normal = number := by
  rw [normal, notZero, if_neg Bool.false_ne_true]

theorem isZero_normal (number : Binary64) : number.normal.isZero = number.isZero := by
  cases zero : number.isZero with
  | true =>
    rw [normal_of_isZero zero]
    decide
  | false => rw [normal_of_not_isZero zero, zero]

/-- What is the same for all zeros does not tell a double from its normal form. -/
theorem view_normal {Result : Type} {view : Binary64 → Result} {ofZero : Result}
    (zeros : ∀ number, number.isZero = true → view number = ofZero) (number : Binary64) :
    view number.normal = view number := by
  cases zero : number.isZero with
  | true => rw [zeros number zero, zeros number.normal ((isZero_normal number).trans zero)]
  | false => rw [normal_of_not_isZero zero]

theorem isNaN_of_isZero {number : Binary64} (zero : number.isZero = true) :
    number.isNaN = false := by
  rw [isZero, Bool.and_eq_true, decide_eq_true_eq] at zero
  rw [isNaN, zero.1]
  rfl

theorem isNaN_normal (number : Binary64) : number.normal.isNaN = number.isNaN :=
  view_normal (fun _ zero => isNaN_of_isZero zero) number

/-- Doubles are equal as numbers if they are numbers and differ at most in the
sign of a zero. -/
theorem equal_iff {left right : Binary64} :
    left.equal right = true ↔ left.normal = right.normal ∧ left.isNaN = false := by
  rw [equal, Bool.and_eq_true, Bool.and_eq_true, Bool.or_eq_true, Bool.and_eq_true,
    decide_eq_true_eq, Bool.not_eq_true', Bool.not_eq_true']
  constructor
  · rintro ⟨⟨number, -⟩, sameBits | ⟨leftZero, rightZero⟩⟩
    · refine ⟨?_, number⟩
      rcases left with ⟨bits⟩
      rw [show bits = right.bits from sameBits]
    · exact ⟨(normal_of_isZero leftZero).trans (normal_of_isZero rightZero).symm, number⟩
  · rintro ⟨same, number⟩
    refine ⟨⟨number, ?_⟩, ?_⟩
    · rw [← isNaN_normal, ← same, isNaN_normal, number]
    · have sameZero : left.isZero = right.isZero := by
        rw [← isZero_normal, same, isZero_normal]
      cases zero : right.isZero with
      | true => exact .inr ⟨sameZero.trans zero, rfl⟩
      | false =>
        rw [normal_of_not_isZero zero, normal_of_not_isZero (sameZero.trans zero)] at same
        exact .inl (congrArg bits same)

end Binary64

namespace Value

mutual

/-- A value with every zero in it made positive. -/
def normal : Value → Value
  | .text content => .text content
  | .integer number => .integer number
  | .real number => .real number.normal
  | .truth flag => .truth flag
  | .list items => .list (normalItems items)
  | .map entries => .map (normalEntries entries)

def normalItems : List Value → List Value
  | [] => []
  | item :: items => normal item :: normalItems items

def normalEntries : List (String × Value) → List (String × Value)
  | [] => []
  | (key, value) :: entries => (key, normal value) :: normalEntries entries

end

theorem normalItems_eq_map (items : List Value) : normalItems items = items.map normal := by
  induction items with
  | nil => rw [normalItems, List.map_nil]
  | cons item items inductionHypothesis => rw [normalItems, inductionHypothesis, List.map_cons]

mutual

/-- Values are equal if they differ at most in the signs of zeros and hold
numbers in the place of numbers. -/
theorem same_iff {left right : Value} :
    left.same right = true ↔ left.normal = right.normal ∧ left.holdsNaN = false := by
  cases left with
  | text | integer | truth => cases right <;> simp [same, normal, holdsNaN]
  | real number => cases right <;> simp [same, normal, holdsNaN, Binary64.equal_iff]
  | list items =>
    cases right with
    | list others => simp only [same, normal, holdsNaN, sameItems_iff, list.injEq]
    | _ => simp [same, normal]
  | map entries =>
    cases right with
    | map others => simp only [same, normal, holdsNaN, sameEntries_iff, map.injEq]
    | _ => simp [same, normal]

theorem sameItems_iff {left right : List Value} :
    sameItems left right = true ↔
      normalItems left = normalItems right ∧ itemsHoldNaN left = false := by
  match left, right with
  | [], [] => simp only [sameItems, normalItems, itemsHoldNaN, and_self]
  | [], _ :: _ | _ :: _, [] => simp [sameItems, normalItems]
  | item :: items, other :: others =>
    rw [sameItems, normalItems, normalItems, itemsHoldNaN, Bool.and_eq_true, same_iff,
      sameItems_iff, List.cons.injEq, Bool.or_eq_false_iff]
    exact and_and_and_comm

theorem sameEntries_iff {left right : List (String × Value)} :
    sameEntries left right = true ↔
      normalEntries left = normalEntries right ∧ entriesHoldNaN left = false := by
  match left, right with
  | [], [] => simp only [sameEntries, normalEntries, entriesHoldNaN, and_self]
  | [], _ :: _ | _ :: _, [] => simp [sameEntries, normalEntries]
  | (key, value) :: entries, (other, otherValue) :: others =>
    rw [sameEntries, normalEntries, normalEntries, entriesHoldNaN, Bool.and_eq_true,
      Bool.and_eq_true, beq_iff_eq, same_iff, sameEntries_iff, List.cons.injEq, Prod.mk.injEq,
      Bool.or_eq_false_iff, ← and_assoc (a := key = other)]
    exact and_and_and_comm

end

mutual

/-- The sign of a zero does not make it a number or none. -/
theorem holdsNaN_normal (value : Value) : value.normal.holdsNaN = value.holdsNaN := by
  cases value with
  | text | integer | truth => rw [normal]
  | real number => rw [normal, holdsNaN, holdsNaN, Binary64.isNaN_normal]
  | list items => rw [normal, holdsNaN, holdsNaN, itemsHoldNaN_normalItems items]
  | map entries => rw [normal, holdsNaN, holdsNaN, entriesHoldNaN_normalEntries entries]

theorem itemsHoldNaN_normalItems (items : List Value) :
    itemsHoldNaN (normalItems items) = itemsHoldNaN items := by
  match items with
  | [] => rw [normalItems]
  | item :: items =>
    rw [normalItems, itemsHoldNaN, itemsHoldNaN, holdsNaN_normal item,
      itemsHoldNaN_normalItems items]

theorem entriesHoldNaN_normalEntries (entries : List (String × Value)) :
    entriesHoldNaN (normalEntries entries) = entriesHoldNaN entries := by
  match entries with
  | [] => rw [normalEntries]
  | (key, value) :: entries =>
    rw [normalEntries, entriesHoldNaN, entriesHoldNaN, holdsNaN_normal value,
      entriesHoldNaN_normalEntries entries]

end

mutual

/-- A value holds what is no number if one of the doubles inside it is none. -/
theorem holdsNaN_iff {value : Value} :
    value.holdsNaN = true ↔ ∃ number ∈ value.reals, number.isNaN = true := by
  cases value with
  | text | integer | truth => simp [holdsNaN, reals]
  | real number => simp [holdsNaN, reals]
  | list items => rw [holdsNaN, reals, itemsHoldNaN_iff]
  | map entries => rw [holdsNaN, reals, entriesHoldNaN_iff]

theorem itemsHoldNaN_iff {items : List Value} :
    itemsHoldNaN items = true ↔ ∃ number ∈ itemReals items, number.isNaN = true := by
  match items with
  | [] => simp [itemsHoldNaN, itemReals]
  | item :: items =>
    rw [itemsHoldNaN, itemReals, Bool.or_eq_true, holdsNaN_iff, itemsHoldNaN_iff]
    simp only [List.mem_append, or_and_right, exists_or]

theorem entriesHoldNaN_iff {entries : List (String × Value)} :
    entriesHoldNaN entries = true ↔ ∃ number ∈ entryReals entries, number.isNaN = true := by
  match entries with
  | [] => simp [entriesHoldNaN, entryReals]
  | (key, value) :: entries =>
    rw [entriesHoldNaN, entryReals, Bool.or_eq_true, holdsNaN_iff, entriesHoldNaN_iff]
    simp only [List.mem_append, or_and_right, exists_or]

end

/-- Maps are equal if their entries are, one by one, in key and value. -/
theorem same_map_iff {left right : List (String × Value)} :
    (Value.map left).same (.map right) = true ↔
      List.Forall₂ (fun entry other => entry.1 = other.1 ∧ entry.2.same other.2 = true)
        left right := by
  rw [same]
  induction left generalizing right with
  | nil => cases right <;> simp [sameEntries]
  | cons entry entries inductionHypothesis =>
    cases right with
    | nil => simp [sameEntries]
    | cons other others =>
      rw [sameEntries, Bool.and_eq_true, Bool.and_eq_true, beq_iff_eq, List.forall₂_cons,
        inductionHypothesis]

/-- Maps are equal if they have the same keys in one order with equal values. -/
theorem same_map_iff_keys {left right : List (String × Value)} :
    (Value.map left).same (.map right) = true ↔
      left.map (·.1) = right.map (·.1) ∧
        List.Forall₂ (fun value other => value.same other = true)
          (left.map (·.2)) (right.map (·.2)) := by
  rw [same_map_iff]
  induction left generalizing right with
  | nil => cases right <;> simp
  | cons entry entries inductionHypothesis =>
    cases right with
    | nil => simp
    | cons other others =>
      simp only [List.forall₂_cons, List.map_cons, List.cons.injEq, inductionHypothesis]
      exact and_and_and_comm

theorem isEquality : IsEquality Value.same Value.reals :=
  .of_normal same_iff holdsNaN_normal holdsNaN_iff

theorem entry?_normalEntries (entries : List (String × Value)) (key : String) :
    entry? (normalEntries entries) key = (Value.entry? entries key).map normal := by
  induction entries with
  | nil => rw [normalEntries, entry?, List.find?_nil, Option.map_none, Option.map_none]
  | cons entry entries inductionHypothesis =>
    rw [normalEntries, entry?_cons, entry?_cons, inductionHypothesis]
    split
    · rw [Option.map_some]
    · rfl

end Value

namespace Property

def normal (property : Property) : Property :=
  { property with value := property.value.normal }

theorem same_iff {left right : Property} :
    left.same right = true ↔ left.normal = right.normal ∧ left.value.holdsNaN = false := by
  rw [Property.same, Bool.and_eq_true, beq_iff_eq, Value.same_iff, normal, normal,
    Property.mk.injEq, and_assoc]

theorem holdsNaN_normal (property : Property) :
    property.normal.value.holdsNaN = property.value.holdsNaN :=
  Value.holdsNaN_normal property.value

theorem isEquality : IsEquality Property.same fun property => property.value.reals :=
  .of_normal same_iff holdsNaN_normal Value.holdsNaN_iff

end Property

namespace Properties

/-- Properties are equal if they are one by one, in key and value. -/
theorem same_iff_forall₂ {left right : Properties} :
    left.same right = true ↔
      List.Forall₂ (fun property other =>
        property.key = other.key ∧ property.value.same other.value = true) left right := by
  induction left generalizing right with
  | nil => cases right <;> simp [same]
  | cons property properties inductionHypothesis =>
    cases right with
    | nil => simp [same]
    | cons other others =>
      rw [same, Property.same, Bool.and_eq_true, Bool.and_eq_true, beq_iff_eq,
        List.forall₂_cons, inductionHypothesis]

theorem same_iff {left right : Properties} :
    left.same right = true ↔
      left.map Property.normal = right.map Property.normal ∧
        (left.any fun property => property.value.holdsNaN) = false := by
  induction left generalizing right with
  | nil => cases right <;> simp [same]
  | cons property properties inductionHypothesis =>
    cases right with
    | nil => simp [same]
    | cons other others =>
      rw [same, Bool.and_eq_true, Property.same_iff, inductionHypothesis, List.map_cons,
        List.map_cons, List.cons.injEq, List.any_cons, Bool.or_eq_false_iff]
      exact and_and_and_comm

theorem holdsNaN_normal (properties : Properties) :
    ((properties.map Property.normal).any fun property => property.value.holdsNaN) =
      properties.any fun property => property.value.holdsNaN := by
  rw [List.any_map]
  congr 1
  funext property
  exact property.holdsNaN_normal

def reals (properties : Properties) : List Binary64 :=
  properties.flatMap fun property => property.value.reals

theorem holdsNaN_iff {properties : Properties} :
    (properties.any fun property => property.value.holdsNaN) = true ↔
      ∃ number ∈ properties.reals, number.isNaN = true := by
  simp only [List.any_eq_true, Value.holdsNaN_iff, reals, List.mem_flatMap]
  constructor
  · rintro ⟨property, listed, number, inside, isNaN⟩
    exact ⟨number, ⟨property, listed, inside⟩, isNaN⟩
  · rintro ⟨number, ⟨property, listed, inside⟩, isNaN⟩
    exact ⟨property, listed, number, inside, isNaN⟩

theorem isEquality : IsEquality Properties.same Properties.reals :=
  .of_normal same_iff holdsNaN_normal holdsNaN_iff

end Properties

namespace Plugin

def normal (plugin : Plugin) : Plugin :=
  { plugin with properties := plugin.properties.map Property.normal }

/-- Instances are equal if they differ at most in the signs of zeros and hold
numbers in the place of numbers. -/
theorem same_iff {left right : Plugin} :
    left.same right = true ↔ left.normal = right.normal ∧ left.holdsNaN = false := by
  rw [Plugin.same, Bool.and_eq_true, beq_iff_eq, Properties.same_iff, normal, normal,
    Plugin.mk.injEq, holdsNaN, and_assoc]

/-- Equal instances differ at most in the signs of zeros. -/
theorem normal_eq_of_same {left right : Plugin} (same : left.same right = true) :
    left.normal = right.normal :=
  (same_iff.mp same).1

theorem holdsNaN_normal (plugin : Plugin) : plugin.normal.holdsNaN = plugin.holdsNaN :=
  Properties.holdsNaN_normal plugin.properties

theorem isEquality : IsEquality Plugin.same fun plugin => plugin.properties.reals :=
  .of_normal same_iff holdsNaN_normal Properties.holdsNaN_iff

theorem holdsNaN_congr {left right : Plugin} (alike : left.normal = right.normal) :
    left.holdsNaN = right.holdsNaN := by
  rw [← holdsNaN_normal, alike, holdsNaN_normal]

/-- Equality looks at both instances alike. -/
theorem same_comm (left right : Plugin) : left.same right = right.same left :=
  isEquality.symm left right

/-- What equals one of two equal instances equals the other. -/
theorem same_congr {left right : Plugin} (same : left.same right = true) (other : Plugin) :
    left.same other = right.same other := by
  have alike := normal_eq_of_same same
  rw [Bool.eq_iff_iff, same_iff, same_iff, alike, holdsNaN_congr alike]

/-- An instance differs from itself if it holds what is no number. -/
theorem same_self (plugin : Plugin) : plugin.same plugin = !plugin.holdsNaN := by
  rw [Bool.eq_iff_iff, same_iff, Bool.not_eq_true']
  exact and_iff_right rfl

theorem holdsNaN_iff {plugin : Plugin} :
    plugin.holdsNaN = true ↔
      ∃ property ∈ plugin.properties, ∃ number ∈ property.value.reals, number.isNaN = true := by
  simp only [holdsNaN, List.any_eq_true, Value.holdsNaN_iff]

end Plugin

namespace Value

/-- Equality by structure is symmetric and transitive, for values as well as for
single properties, lists of them and instances.  What equals itself is what has no
double inside, at any depth, that is no number.  Maps are equal exactly if they
have the same keys in the same order and their values are equal one by one. -/
theorem isEquality_same :
    IsEquality Value.same Value.reals ∧
      IsEquality Property.same (fun property => property.value.reals) ∧
      IsEquality Properties.same Properties.reals ∧
      IsEquality Plugin.same (fun plugin => plugin.properties.reals) ∧
      ∀ left right : List (String × Value), (Value.map left).same (.map right) = true ↔
        left.map (·.1) = right.map (·.1) ∧
          List.Forall₂ (fun value other => value.same other = true)
            (left.map (·.2)) (right.map (·.2)) := by
  refine ⟨isEquality, Property.isEquality, Properties.isEquality, Plugin.isEquality, ?_⟩
  intro left right
  exact same_map_iff_keys

-- A zero has either sign, what is no number differs from itself inside a list,
-- and maps differ where one goes on or has another order.
example :
    (map [("a", .list [.real ⟨0⟩])]).same (.map [("a", .list [.real ⟨0x8000000000000000⟩])]) =
        true ∧
      (map [("a", .list [.real .notANumber])]).same (.map [("a", .list [.real .notANumber])]) =
        false ∧
      (map [("a", .integer 1)]).same (.map [("a", .integer 1), ("b", .truth true)]) = false ∧
      (map [("a", .integer 1), ("b", .truth true)]).same
        (.map [("b", .truth true), ("a", .integer 1)]) = false := by
  decide +kernel

end Value

end LogPipeline
