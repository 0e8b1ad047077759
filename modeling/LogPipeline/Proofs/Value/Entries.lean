import LogPipeline.Value
import Mathlib.Data.List.Nodup

namespace LogPipeline

namespace Value

/-!
# Putting entries into a map

Entries that are put one after the other into a map never give it two entries
of one key.  Of several with one key the last gives the value and the first the
place.  So the map has the entries as they were put exactly if their keys
differ.
-/

def putAll (before written : List (String × Value)) : List (String × Value) :=
  written.foldl (fun entries entry => insert entries entry.1 entry.2) before

theorem insert_of_notMem {entries : List (String × Value)} {key : String} {value : Value}
    (newKey : key ∉ entries.map (·.1)) : insert entries key value = entries ++ [(key, value)] := by
  induction entries with
  | nil => rfl
  | cons entry entries inductionHypothesis =>
    rw [List.map_cons, List.mem_cons, not_or] at newKey
    rw [insert, if_neg (Ne.symm newKey.1), inductionHypothesis newKey.2, List.cons_append]

theorem map_fst_insert_of_mem {entries : List (String × Value)} {key : String} {value : Value}
    (known : key ∈ entries.map (·.1)) :
    (insert entries key value).map (·.1) = entries.map (·.1) := by
  induction entries with
  | nil => cases known
  | cons entry entries inductionHypothesis =>
    rw [insert]
    split
    · rename_i same
      rw [List.map_cons, List.map_cons, same]
    · rename_i different
      rw [List.map_cons, List.map_cons]
      rw [List.map_cons, List.mem_cons] at known
      rw [inductionHypothesis (known.resolve_left (Ne.symm different))]

theorem nodup_insert {entries : List (String × Value)} (distinct : (entries.map (·.1)).Nodup)
    (key : String) (value : Value) : ((insert entries key value).map (·.1)).Nodup := by
  by_cases known : key ∈ entries.map (·.1)
  · rw [map_fst_insert_of_mem known]
    exact distinct
  · rw [insert_of_notMem known, List.map_append, List.map_singleton]
    rw [← List.concat_eq_append]
    exact distinct.concat known

theorem entry?_cons (entry : String × Value) (entries : List (String × Value)) (key : String) :
    entry? (entry :: entries) key = if entry.1 = key then some entry.2 else entry? entries key := by
  rw [Value.entry?, List.find?_cons]
  by_cases same : entry.1 = key
  · rw [decide_eq_true same, if_pos same, Option.map_some]
  · rw [decide_eq_false same, if_neg same, Value.entry?]

theorem entry?_append (entries later : List (String × Value)) (key : String) :
    entry? (entries ++ later) key = (Value.entry? entries key).or (Value.entry? later key) := by
  rw [Value.entry?, List.find?_append, Option.map_or, Value.entry?, Value.entry?]

theorem entry?_insert (entries : List (String × Value)) (key : String) (value : Value)
    (other : String) :
    entry? (insert entries key value) other =
      if key = other then some value else entry? entries other := by
  induction entries with
  | nil => rw [insert, entry?_cons]
  | cons entry entries inductionHypothesis =>
    rw [insert]
    split
    · rename_i same
      rw [entry?_cons, entry?_cons, same]
      split <;> rfl
    · rename_i different
      rw [entry?_cons, entry?_cons, inductionHypothesis]
      by_cases first : entry.1 = other
      · rw [if_pos first, if_pos first, if_neg (fun same => different (first.trans same.symm))]
      · rw [if_neg first, if_neg first]

theorem nodup_putAll {before : List (String × Value)} (distinct : (before.map (·.1)).Nodup)
    (written : List (String × Value)) : ((putAll before written).map (·.1)).Nodup := by
  induction written generalizing before with
  | nil => exact distinct
  | cons entry written inductionHypothesis =>
    exact inductionHypothesis (nodup_insert distinct entry.1 entry.2)

theorem putAll_of_nodup {before written : List (String × Value)}
    (distinct : ((before ++ written).map (·.1)).Nodup) :
    putAll before written = before ++ written := by
  induction written generalizing before with
  | nil => exact (List.append_nil before).symm
  | cons entry written inductionHypothesis =>
    have newKey : entry.1 ∉ before.map (·.1) := by
      rw [List.map_append, List.nodup_append'] at distinct
      exact fun known => distinct.2.2 known List.mem_cons_self
    rw [List.append_cons] at distinct ⊢
    change putAll (insert before entry.1 entry.2) written = _
    rw [insert_of_notMem newKey]
    exact inductionHypothesis distinct

/-- Entries make a map as they are exactly if their keys differ. -/
theorem putAll_eq_self_iff {written : List (String × Value)} :
    putAll [] written = written ↔ (written.map (·.1)).Nodup := by
  constructor
  · intro same
    rw [← same]
    exact @nodup_putAll [] .nil written
  · intro distinct
    exact putAll_of_nodup distinct

/-- The last of several entries with one key gives its value. -/
theorem entry?_putAll (before written : List (String × Value)) (key : String) :
    entry? (putAll before written) key =
      (Value.entry? written.reverse key).or (Value.entry? before key) := by
  induction written generalizing before with
  | nil => rfl
  | cons entry written inductionHypothesis =>
    change entry? (putAll (insert before entry.1 entry.2) written) key = _
    rw [inductionHypothesis, entry?_insert, List.reverse_cons, entry?_append, entry?_cons,
      Option.or_assoc]
    congr 1
    split <;> rfl

end Value

end LogPipeline
