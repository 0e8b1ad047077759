import Mathlib.Data.List.Induction
import LogPipeline.Merge
import LogPipeline.Proofs.Value.Equality

namespace LogPipeline

namespace Merge

/-!
# What is kept of two lists

Leaving out repetitions adds nothing, and of every instance that is left out an
equal one is kept.  So whatever is alike for equal instances is found among the
kept ones exactly if it is found among all.

In particular an instance equals one that is kept exactly if it equals any one
before it, and so it is kept exactly if it is the first of its kind.  What is
kept holds no equal instances, and is kept as a whole when it is merged again.
Only an instance that holds what is no number differs from itself, and is kept
as often as it comes.
-/

/-- What is kept was there. -/
theorem mem_of_mem_keep {kept plugins : List Plugin} {plugin : Plugin}
    (member : plugin ∈ keep kept plugins) : plugin ∈ plugins := by
  induction plugins generalizing kept with
  | nil => cases member
  | cons first rest inductionHypothesis =>
    rw [keep] at member
    split at member
    · exact List.mem_cons_of_mem _ (inductionHypothesis member)
    · rcases List.mem_cons.mp member with rfl | later
      · exact List.mem_cons_self
      · exact List.mem_cons_of_mem _ (inductionHypothesis later)

/-- Every instance is kept, or equals one that is. -/
theorem exists_mem_keep {kept plugins : List Plugin} {plugin : Plugin}
    (member : plugin ∈ plugins) :
    ∃ seen ∈ kept ++ keep kept plugins, seen = plugin ∨ seen.same plugin = true := by
  induction plugins generalizing kept with
  | nil => cases member
  | cons first rest inductionHypothesis =>
    rw [keep]
    split
    · rename_i repeated
      rcases List.mem_cons.mp member with rfl | later
      · rcases List.any_eq_true.mp repeated with ⟨seen, before, same⟩
        exact ⟨seen, List.mem_append_left _ before, .inr same⟩
      · exact inductionHypothesis later
    · rcases List.mem_cons.mp member with rfl | later
      · exact ⟨plugin, List.mem_append_right _ List.mem_cons_self, .inl rfl⟩
      · rcases @inductionHypothesis (kept ++ [first]) later with ⟨seen, found, alike⟩
        rw [← List.append_cons] at found
        exact ⟨seen, found, alike⟩

/-- What equal instances have alike is found in a merged list exactly if it is
found in one of the two. -/
theorem exists_mem_merge_iff {Image : Type} {image : Plugin → Image}
    (alike : ∀ left right, left.same right = true → image left = image right)
    (primary secondary : List Plugin) (result : Image) :
    (∃ plugin ∈ merge primary secondary, image plugin = result) ↔
      ∃ plugin ∈ primary ++ secondary, image plugin = result := by
  constructor
  · rintro ⟨plugin, member, found⟩
    exact ⟨plugin, mem_of_mem_keep member, found⟩
  · rintro ⟨plugin, member, rfl⟩
    rcases @exists_mem_keep [] _ _ member with ⟨seen, kept, rfl | same⟩
    · exact ⟨seen, kept, rfl⟩
    · exact ⟨seen, kept, alike seen plugin same⟩

/-! ## First occurrences -/

/-- The instances of two lists are those of the first and those that the second
adds. -/
theorem keep_append (kept plugins later : List Plugin) :
    keep kept (plugins ++ later) =
      keep kept plugins ++ keep (kept ++ keep kept plugins) later := by
  induction plugins generalizing kept with
  | nil => rw [List.nil_append, keep, List.nil_append, List.append_nil]
  | cons first rest inductionHypothesis =>
    rw [List.cons_append, keep, keep]
    split
    · exact inductionHypothesis kept
    · rw [inductionHypothesis, List.cons_append, ← List.append_cons]

/-- An instance equals one that is kept exactly if it equals one of all. -/
theorem any_distinct (plugins : List Plugin) (other : Plugin) :
    ((distinct plugins).any fun seen => seen.same other) =
      plugins.any fun seen => seen.same other := by
  have found := @exists_mem_merge_iff Bool (fun seen => seen.same other)
    (fun _ _ same => Plugin.same_congr same other) plugins [] true
  rw [merge, List.append_nil] at found
  rw [Bool.eq_iff_iff, List.any_eq_true, List.any_eq_true, found]

theorem distinct_concat (plugins : List Plugin) (last : Plugin) :
    distinct (plugins ++ [last]) =
      if plugins.any fun seen => seen.same last then distinct plugins
      else distinct plugins ++ [last] := by
  rw [distinct, keep_append, List.nil_append, ← distinct, keep, keep, any_distinct]
  split
  · exact List.append_nil _
  · rfl

theorem distinct_sublist (plugins : List Plugin) : (distinct plugins).Sublist plugins := by
  induction plugins using List.reverseRecOn with
  | nil => exact .slnil
  | append_singleton plugins last inductionHypothesis =>
    rw [distinct_concat]
    split
    · exact inductionHypothesis.trans (List.sublist_append_left plugins [last])
    · exact inductionHypothesis.append_right [last]

/-- No two instances that are kept are equal. -/
theorem distinct_apart (plugins : List Plugin) :
    (distinct plugins).Pairwise fun earlier later => earlier.same later = false := by
  induction plugins using List.reverseRecOn with
  | nil => exact .nil
  | append_singleton plugins last inductionHypothesis =>
    rw [distinct_concat]
    split
    · exact inductionHypothesis
    · rename_i new
      rw [Bool.not_eq_true, List.any_eq_false] at new
      rw [List.pairwise_append]
      refine ⟨inductionHypothesis, List.pairwise_singleton _ last, ?_⟩
      intro seen kept other isLast
      rw [List.mem_singleton.mp isLast]
      exact Bool.eq_false_iff.mpr (new seen (mem_of_mem_keep kept))

/-- The instance at a place of a list equals none at an earlier place. -/
def IsFirst (plugins : List Plugin) (place : Nat) : Prop :=
  ∃ plugin, plugins[place]? = some plugin ∧
    ∀ earlier < place, ∀ other, plugins[earlier]? = some other → other.same plugin = false

theorem lt_length_of_isFirst {plugins : List Plugin} {place : Nat}
    (first : IsFirst plugins place) : place < plugins.length := by
  rcases first with ⟨plugin, here, -⟩
  exact (List.getElem?_eq_some_iff.mp here).1

theorem isFirst_append_iff_of_lt {plugins : List Plugin} {place : Nat}
    (inside : place < plugins.length) (later : List Plugin) :
    IsFirst (plugins ++ later) place ↔ IsFirst plugins place := by
  have unchanged : ∀ earlier ≤ place, (plugins ++ later)[earlier]? = plugins[earlier]? :=
    fun _ before => List.getElem?_append_left (Nat.lt_of_le_of_lt before inside)
  rw [IsFirst, IsFirst, unchanged place (Nat.le_refl place)]
  apply exists_congr
  intro plugin
  apply and_congr_right
  intro _
  apply forall₂_congr
  intro earlier before
  rw [unchanged earlier (Nat.le_of_lt before)]

theorem isFirst_length_iff {plugins : List Plugin} {last : Plugin} :
    IsFirst (plugins ++ [last]) plugins.length ↔
      (plugins.any fun seen => seen.same last) = false := by
  rw [List.any_eq_false]
  constructor
  · rintro ⟨plugin, here, apart⟩ seen member
    rw [List.getElem?_concat_length, Option.some.injEq] at here
    rcases List.mem_iff_getElem?.mp member with ⟨earlier, found⟩
    have before := (List.getElem?_eq_some_iff.mp found).1
    rw [← List.getElem?_append_left before] at found
    rw [here]
    exact Bool.eq_false_iff.mp (apart earlier before seen found)
  · intro apart
    refine ⟨last, List.getElem?_concat_length, ?_⟩
    intro earlier before other found
    rw [List.getElem?_append_left before] at found
    exact Bool.eq_false_iff.mpr (apart other (List.mem_of_getElem? found))

theorem isFirst_concat_iff {plugins : List Plugin} {last : Plugin} {place : Nat} :
    IsFirst (plugins ++ [last]) place ↔
      IsFirst plugins place ∨
        place = plugins.length ∧ (plugins.any fun seen => seen.same last) = false := by
  by_cases inside : place < plugins.length
  · rw [isFirst_append_iff_of_lt inside, or_iff_left]
    rintro ⟨rfl, -⟩
    exact Nat.lt_irrefl _ inside
  · rw [or_iff_right fun first => inside (lt_length_of_isFirst first)]
    constructor
    · intro first
      have bounded := lt_length_of_isFirst first
      rw [List.length_append, List.length_singleton] at bounded
      have atEnd : place = plugins.length := by omega
      rw [atEnd] at first
      exact ⟨atEnd, isFirst_length_iff.mp first⟩
    · rintro ⟨rfl, new⟩
      exact isFirst_length_iff.mpr new

/-- What is kept stands at the places of first occurrences, in their order. -/
theorem exists_places (plugins : List Plugin) :
    ∃ places : List Nat,
      places.Pairwise (· < ·) ∧
      (∀ place, place ∈ places ↔ IsFirst plugins place) ∧
      (distinct plugins).map some = places.map (plugins[·]?) := by
  induction plugins using List.reverseRecOn with
  | nil =>
    refine ⟨[], .nil, ?_, rfl⟩
    intro place
    refine iff_of_false List.not_mem_nil ?_
    rintro ⟨_, ⟨⟩, -⟩
  | append_singleton plugins last inductionHypothesis =>
    rcases inductionHypothesis with ⟨places, increasing, firsts, same⟩
    have inside : ∀ place ∈ places, place < plugins.length :=
      fun place member => lt_length_of_isFirst ((firsts place).mp member)
    have unchanged : places.map ((plugins ++ [last])[·]?) = places.map (plugins[·]?) :=
      List.map_congr_left fun place member => List.getElem?_append_left (inside place member)
    rw [distinct_concat]
    simp only [isFirst_concat_iff]
    cases (plugins.any fun seen => seen.same last) with
    | true =>
      refine ⟨places, increasing, ?_, unchanged ▸ same⟩
      intro place
      rw [firsts, or_iff_left (by simp)]
    | false =>
      refine ⟨places ++ [plugins.length], ?_, ?_, ?_⟩
      · rw [List.pairwise_append]
        refine ⟨increasing, List.pairwise_singleton _ _, ?_⟩
        intro place member other isLast
        rw [List.mem_singleton.mp isLast]
        exact inside place member
      · intro place
        rw [List.mem_append, List.mem_singleton, firsts, and_iff_left rfl]
      · rw [if_neg Bool.false_ne_true, List.map_append, List.map_append, same, unchanged,
          List.map_singleton, List.map_singleton, List.getElem?_concat_length]

/-- Two instances are equal if their names are and their properties are, one by
one and with the entries of maps in their order.  Of two lists one after the
other those instances are kept that stand at the first place of an equal one, in
the order of the places.  So no two of them are equal, and an instance that is
not kept equals one that is. -/
theorem firsts_of_merge (primary secondary : List Plugin) :
    ∃ places : List Nat,
      places.Pairwise (· < ·) ∧
      (∀ place, place ∈ places ↔ IsFirst (primary ++ secondary) place) ∧
      (merge primary secondary).map some = places.map ((primary ++ secondary)[·]?) ∧
      (merge primary secondary).Sublist (primary ++ secondary) ∧
      ((merge primary secondary).Pairwise fun earlier later =>
        earlier.same later = false ∧ later.same earlier = false) ∧
      (∀ place plugin, (primary ++ secondary)[place]? = some plugin → place ∉ places →
        ∃ kept ∈ merge primary secondary, kept.same plugin = true ∧ plugin.same kept = true) ∧
      (∀ left right : Plugin, left.same right = true ↔
        left.name = right.name ∧
          List.Forall₂ (fun property other =>
            property.key = other.key ∧ property.value.same other.value = true)
            left.properties right.properties) ∧
      ∀ left right : List (String × Value), (Value.map left).same (.map right) = true ↔
        List.Forall₂ (fun entry other => entry.1 = other.1 ∧ entry.2.same other.2 = true)
          left right := by
  rcases exists_places (primary ++ secondary) with ⟨places, increasing, firsts, same⟩
  refine ⟨places, increasing, firsts, same, distinct_sublist _, ?_, ?_, ?_, ?_⟩
  · apply (distinct_apart (primary ++ secondary)).imp
    intro earlier later apart
    exact ⟨apart, (Plugin.same_comm later earlier).trans apart⟩
  · intro place plugin here leftOut
    have repeated : ∃ other ∈ primary ++ secondary, other.same plugin = true := by
      by_contra none
      apply leftOut
      rw [firsts]
      refine ⟨plugin, here, ?_⟩
      intro earlier _ other found
      rw [Bool.eq_false_iff]
      intro equal
      exact none ⟨other, List.mem_of_getElem? found, equal⟩
    have known := any_distinct (primary ++ secondary) plugin
    rw [List.any_eq_true.mpr repeated, List.any_eq_true] at known
    rcases known with ⟨kept, member, equal⟩
    exact ⟨kept, member, equal, (Plugin.same_comm plugin kept).trans equal⟩
  · intro left right
    rw [Plugin.same, Bool.and_eq_true, beq_iff_eq, Properties.same_iff_forall₂]
  · intro left right
    exact Value.same_map_iff

/-! ## Merging again -/

/-- Instances of which no two are equal are all kept. -/
theorem keep_of_apart {kept plugins : List Plugin}
    (apart : (kept ++ plugins).Pairwise fun earlier later => earlier.same later = false) :
    keep kept plugins = plugins := by
  induction plugins generalizing kept with
  | nil => rw [keep]
  | cons first rest inductionHypothesis =>
    have new : (kept.any fun seen => seen.same first) = false := by
      rw [List.any_eq_false]
      intro seen member
      rw [List.pairwise_append] at apart
      exact Bool.eq_false_iff.mp (apart.2.2 seen member first List.mem_cons_self)
    rw [List.append_cons] at apart
    rw [keep, new, if_neg Bool.false_ne_true, inductionHypothesis apart]

theorem distinct_distinct (plugins : List Plugin) :
    distinct (distinct plugins) = distinct plugins :=
  keep_of_apart (distinct_apart plugins)

/-- Of instances that are kept already, those are kept again that differ from
themselves. -/
theorem keep_of_known {kept plugins : List Plugin} (known : plugins ⊆ kept) :
    keep kept plugins = plugins.filter fun plugin => !plugin.same plugin := by
  induction plugins generalizing kept with
  | nil => rw [keep, List.filter_nil]
  | cons first rest inductionHypothesis =>
    rw [List.cons_subset] at known
    rw [keep]
    cases self : first.same first with
    | true =>
      have repeated : (kept.any fun seen => seen.same first) = true :=
        List.any_eq_true.mpr ⟨first, known.1, self⟩
      rw [repeated, if_pos rfl, inductionHypothesis known.2,
        List.filter_cons_of_neg (by simp [self])]
    | false =>
      -- What differs from itself differs from everything.
      have new : (kept.any fun seen => seen.same first) = false := by
        rw [List.any_eq_false]
        intro seen _ equal
        rw [← Plugin.same_congr equal, equal] at self
        cases self
      have knownLater : rest ⊆ kept ++ [first] :=
        fun plugin member => List.mem_append_left _ (known.2 member)
      rw [new, if_neg Bool.false_ne_true, inductionHypothesis knownLater,
        List.filter_cons_of_pos (by simp [self])]

/-- A merged list is not changed by leaving out repetitions once more, nor by
being merged with nothing.  Merged with itself it has those instances twice that
differ from themselves, and these are the ones with a double, at any depth, that
is no number. -/
theorem merge_merged (primary secondary : List Plugin) :
    distinct (merge primary secondary) = merge primary secondary ∧
      merge (merge primary secondary) [] = merge primary secondary ∧
      merge (merge primary secondary) (merge primary secondary) =
        merge primary secondary ++
          (merge primary secondary).filter (fun plugin => !plugin.same plugin) ∧
      (∀ plugin : Plugin, plugin.same plugin = false ↔
        ∃ property ∈ plugin.properties, ∃ number ∈ property.value.reals, number.isNaN = true) ∧
      (merge (merge primary secondary) (merge primary secondary) = merge primary secondary ↔
        ∀ plugin ∈ merge primary secondary, ∀ property ∈ plugin.properties,
          ∀ number ∈ property.value.reals, number.isNaN = false) := by
  have stays : distinct (merge primary secondary) = merge primary secondary :=
    distinct_distinct (primary ++ secondary)
  have differs : ∀ plugin : Plugin, plugin.same plugin = false ↔
      ∃ property ∈ plugin.properties, ∃ number ∈ property.value.reals, number.isNaN = true := by
    intro plugin
    rw [Plugin.same_self, Bool.not_eq_false', Plugin.holdsNaN_iff]
  have twice : merge (merge primary secondary) (merge primary secondary) =
      merge primary secondary ++
        (merge primary secondary).filter (fun plugin => !plugin.same plugin) := by
    rw [merge, distinct, keep_append, ← distinct, stays, List.nil_append,
      keep_of_known (List.Subset.refl _)]
  refine ⟨stays, ?_, twice, differs, ?_⟩
  · rw [merge, List.append_nil, stays]
  · rw [twice, List.append_right_eq_self, List.filter_eq_nil_iff]
    apply forall₂_congr
    intro plugin _
    rw [Bool.not_eq_true, Bool.not_eq_false', ← Bool.not_eq_false, differs]
    simp only [not_exists, not_and, Bool.not_eq_true]

end Merge

end LogPipeline
