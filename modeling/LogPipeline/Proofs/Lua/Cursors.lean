import LogPipeline.Lua.Scanning
import LogPipeline.Proofs.Text.Quoting

namespace LogPipeline

namespace Lua

namespace Scanner

open String (utf8Len utf8EncodeChar)

/-!
# Cursors between characters

Where a cursor stands between two characters, what it sees are the letters that
are left: an ASCII letter is a byte of its own, and all bytes of any other
character lie beyond ASCII.  From there a move over whole letters stays in the
text, and the letters between two such places can be taken out.

A loop is followed letter by letter.  It may leave its cursor inside a
character, and from there on passes over bytes beyond ASCII alone, so it comes
to the end of that character.
-/

theorem ok_bind {α β : Type} (value : α) (next : α → Except Halt β) :
    Except.ok value >>= next = next value :=
  rfl

/-- The offset in front of the last letters of a text. -/
def offset (content : String) (letters : List Char) : Nat :=
  content.utf8ByteSize - utf8Len letters

/-- The place in front of the last letters of a text, on a line. -/
def before (content : String) (line : Nat) (letters : List Char) : Cursor :=
  { position := offset content letters, line := line }

/-! ## Moving over letters -/

section Offsets

variable {content : String} {front letters : List Char} {letter : Char}

theorem offset_nil : offset content [] = content.utf8ByteSize :=
  Nat.sub_zero _

theorem offset_le : offset content letters ≤ content.utf8ByteSize :=
  Nat.sub_le _ _

/-- In front of letters at the end of a text stand as many bytes as those of the
letters before them. -/
theorem offset_of_eq_append (whole : content.toList = front ++ letters) :
    offset content letters = utf8Len front := by
  rw [offset, ← String.utf8Len_toList, whole, String.utf8Len_append, Nat.add_sub_cancel]

theorem offset_append (ends : front ++ letters <:+ content.toList) :
    offset content letters = offset content (front ++ letters) + utf8Len front := by
  rcases ends with ⟨first, whole⟩
  rw [offset_of_eq_append whole.symm,
    offset_of_eq_append (whole.symm.trans (List.append_assoc _ _ _).symm), String.utf8Len_append]

theorem offset_cons (ends : letter :: letters <:+ content.toList) :
    offset content letters = offset content (letter :: letters) + letter.utf8Size := by
  have whole : letter :: letters = [letter] ++ letters := rfl
  rw [whole] at ends ⊢
  rw [offset_append ends, String.utf8Len_cons, String.utf8Len_nil, Nat.zero_add]

/-- Fewer letters are left further on. -/
theorem offset_lt {rest : List Char} (ends : letters <:+ content.toList) (left : rest <:+ letters)
    (shorter : rest.length < letters.length) : offset content letters < offset content rest := by
  rcases left with ⟨front, whole⟩
  subst whole
  have moved := offset_append ends
  have positive : utf8Len front ≠ 0 := by
    intro zero
    rw [String.utf8Len_eq_zero.mp zero] at shorter
    exact Nat.lt_irrefl _ shorter
  omega

theorem isValid_offset (ends : letters <:+ content.toList) :
    String.Pos.Raw.IsValid content ⟨offset content letters⟩ := by
  rcases ends with ⟨front, whole⟩
  have valid := Quoted.isValid_utf8Len front letters
  rwa [whole, String.ofList_toList, ← offset_of_eq_append whole.symm] at valid

theorem utf8Size_of_lt (small : letter.toNat < 128) : letter.utf8Size = 1 := by
  rw [← String.length_utf8EncodeChar, Quoted.utf8EncodeChar_of_lt small, List.length_singleton]

/-- A character beyond ASCII takes two bytes at least. -/
theorem two_le_utf8Size (large : 128 ≤ letter.toNat) : 2 ≤ letter.utf8Size := by
  have notOne : letter.utf8Size ≠ 1 := by
    intro one
    have small := Char.utf8Size_eq_one_iff.mp one
    exact absurd (UInt32.le_iff_toNat_le.mp small) (Nat.not_le_of_lt large)
  have positive := letter.utf8Size_pos
  omega

theorem utf8Len_of_lt (small : ∀ letter ∈ letters, letter.toNat < 128) :
    utf8Len letters = letters.length := by
  induction letters with
  | nil => rfl
  | cons letter rest inductionHypothesis =>
    rw [List.forall_mem_cons] at small
    rw [String.utf8Len_cons, inductionHypothesis small.2, utf8Size_of_lt small.1,
      List.length_cons]

theorem length_flatMap_utf8EncodeChar (letters : List Char) :
    (letters.flatMap utf8EncodeChar).length = utf8Len letters := by
  induction letters with
  | nil => rfl
  | cons letter rest inductionHypothesis =>
    rw [List.flatMap_cons, List.length_append, inductionHypothesis,
      String.length_utf8EncodeChar, String.utf8Len_cons, Nat.add_comm]

/-- The bytes behind a place are those of the letters behind it. -/
theorem drop_offset (ends : letters <:+ content.toList) :
    content.toByteArray.data.toList.drop (offset content letters) =
      letters.flatMap utf8EncodeChar := by
  rcases ends with ⟨front, whole⟩
  rw [offset_of_eq_append whole.symm, Quoted.bytes_eq, ← whole, List.flatMap_append,
    ← length_flatMap_utf8EncodeChar, List.drop_left]

end Offsets

section Places

variable {content : String} {line : Nat} {letter : Char} {front rest letters : List Char}

theorem advance_before (ends : front ++ rest <:+ content.toList) :
    (before content line (front ++ rest)).advance content (utf8Len front) =
      .ok (before content line rest) := by
  have moved := offset_append ends
  rw [Cursor.advance, before, before, ← moved, if_pos offset_le]

/-- A number of ASCII letters is as many bytes. -/
theorem advance_ascii {count : Nat} (ends : front ++ rest <:+ content.toList)
    (small : ∀ letter ∈ front, letter.toNat < 128) (counted : front.length = count) :
    (before content line (front ++ rest)).advance content count =
      .ok (before content line rest) := by
  rw [← counted, ← utf8Len_of_lt small]
  exact advance_before ends

theorem advance_one (ends : letter :: rest <:+ content.toList) (small : letter.toNat < 128) :
    (before content line (letter :: rest)).advance content 1 = .ok (before content line rest) := by
  have whole : letter :: rest = [letter] ++ rest := rfl
  rw [whole] at ends ⊢
  exact advance_ascii ends (List.forall_mem_singleton.mpr small) rfl

theorem advance_two {first second : Char} (ends : first :: second :: rest <:+ content.toList)
    (firstSmall : first.toNat < 128) (secondSmall : second.toNat < 128) :
    (before content line (first :: second :: rest)).advance content 2 =
      .ok (before content line rest) := by
  have whole : first :: second :: rest = [first, second] ++ rest := rfl
  rw [whole] at ends ⊢
  apply advance_ascii ends _ rfl
  intro letter member
  rcases List.mem_pair.mp member with rfl | rfl
  · exact firstSmall
  · exact secondSmall

/-- The letters between two places. -/
theorem slice_before (ends : front ++ rest <:+ content.toList) :
    (before content line (front ++ rest)).slice content (offset content rest) = .ok front := by
  have moved := offset_append ends
  have onward : offset content (front ++ rest) ≤ offset content rest := by omega
  have firstValid := isValid_offset ends
  have lastValid := isValid_offset ((List.suffix_append front rest).trans ends)
  rw [Cursor.slice, before, if_pos ⟨onward, firstValid, lastValid⟩]
  rcases ends with ⟨first, whole⟩
  have taken := String.extract_of_valid first front rest
  rw [List.append_assoc, whole, String.ofList_toList, ← offset_of_eq_append whole.symm,
    ← moved] at taken
  rw [taken, String.toList_ofList]

theorem ofUInt8_ofNat_toNat (small : letter.toNat < 128) :
    Char.ofUInt8 (UInt8.ofNat letter.toNat) = letter := by
  apply Char.toNat_inj.mp
  change (UInt8.ofNat letter.toNat).toNat = letter.toNat
  rw [UInt8.toNat_ofNat']
  omega

/-- The bytes of ASCII letters are these letters. -/
theorem map_ofUInt8_flatMap (small : ∀ letter ∈ letters, letter.toNat < 128) :
    (letters.flatMap utf8EncodeChar).map Char.ofUInt8 = letters := by
  induction letters with
  | nil => rfl
  | cons letter rest inductionHypothesis =>
    rw [List.forall_mem_cons] at small
    rw [List.flatMap_cons, List.map_append, inductionHypothesis small.2,
      Quoted.utf8EncodeChar_of_lt small.1, List.map_singleton, ofUInt8_ofNat_toNat small.1,
      List.singleton_append]

/-- The bytes between two places with ASCII letters between them. -/
theorem bytes_before (ends : front ++ rest <:+ content.toList)
    (small : ∀ letter ∈ front, letter.toNat < 128) :
    (before content line (front ++ rest)).bytes content (offset content rest) = .ok front := by
  have moved := offset_append ends
  have onward : offset content (front ++ rest) ≤ offset content rest := by omega
  have counted : offset content rest - offset content (front ++ rest) =
      (front.flatMap utf8EncodeChar).length := by
    rw [length_flatMap_utf8EncodeChar]
    omega
  rw [Cursor.bytes, before, if_pos ⟨onward, offset_le⟩, counted, drop_offset ends,
    List.flatMap_append, List.take_left, map_ofUInt8_flatMap small]

/-! ## Looking at bytes -/

theorem peek_before (ends : letters <:+ content.toList) (ahead : Nat) :
    (before content line letters).peek content ahead =
      (letters.flatMap utf8EncodeChar)[ahead]?.map Char.ofUInt8 := by
  rw [Cursor.peek, before, ← Array.getElem?_toList, ← List.getElem?_drop, drop_offset ends]

theorem peek_nil (ahead : Nat) : (before content line []).peek content ahead = none :=
  peek_before List.nil_suffix ahead

theorem peek_ascii (line : Nat) (ends : letter :: rest <:+ content.toList)
    (small : letter.toNat < 128) :
    (before content line (letter :: rest)).peek content 0 = some letter := by
  rw [peek_before ends, List.flatMap_cons, Quoted.utf8EncodeChar_of_lt small,
    List.singleton_append, List.getElem?_cons_zero, Option.map_some, ofUInt8_ofNat_toNat small]

/-- Behind an ASCII letter a cursor sees what it will see once it has passed the letter. -/
theorem peek_succ (ends : letter :: rest <:+ content.toList) (small : letter.toNat < 128)
    (ahead : Nat) :
    (before content line (letter :: rest)).peek content (ahead + 1) =
      (before content line rest).peek content ahead := by
  rw [peek_before ends, peek_before ((List.suffix_cons letter rest).trans ends),
    List.flatMap_cons, Quoted.utf8EncodeChar_of_lt small, List.singleton_append,
    List.getElem?_cons_succ]

/-- Within a character beyond ASCII a cursor sees bytes beyond ASCII. -/
theorem peek_large (line : Nat) (ends : letter :: rest <:+ content.toList)
    (large : 128 ≤ letter.toNat) {ahead : Nat} (within : ahead < letter.utf8Size) :
    ∃ byte, 128 ≤ byte.toNat ∧
      (before content line (letter :: rest)).peek content ahead = some byte := by
  rw [← String.length_utf8EncodeChar] at within
  refine ⟨Char.ofUInt8 (utf8EncodeChar letter)[ahead], ?_, ?_⟩
  · exact Quoted.le_of_mem_utf8EncodeChar large _ (List.getElem_mem within)
  · rw [peek_before ends, List.flatMap_cons, List.getElem?_append_left within,
      List.getElem?_eq_getElem within, Option.map_some]

theorem peek_cons (line : Nat) (ends : letter :: rest <:+ content.toList) :
    ∃ byte, (before content line (letter :: rest)).peek content 0 = some byte := by
  rcases Nat.lt_or_ge letter.toNat 128 with small | large
  · exact ⟨letter, peek_ascii line ends small⟩
  · rcases peek_large line ends large letter.utf8Size_pos with ⟨byte, -, seen⟩
    exact ⟨byte, seen⟩

def Ascii (isOfKind : Char → Bool) : Prop :=
  ∀ letter, isOfKind letter = true → letter.toNat < 128

theorem Ascii.eq_false {isOfKind : Char → Bool} (ascii : Ascii isOfKind)
    (large : 128 ≤ letter.toNat) : isOfKind letter = false := by
  rw [Bool.eq_false_iff]
  intro ofKind
  exact Nat.not_lt_of_le large (ascii letter ofKind)

/-- The byte that a cursor sees is of a kind of ASCII letters exactly if the
letter behind it is. -/
theorem any_peek {isOfKind : Char → Bool} (ascii : Ascii isOfKind)
    (ends : letters <:+ content.toList) :
    ((before content line letters).peek content 0).any isOfKind = letters.head?.any isOfKind := by
  cases letters with
  | nil => rw [peek_nil, List.head?_nil]
  | cons letter rest =>
    rcases Nat.lt_or_ge letter.toNat 128 with small | large
    · rw [peek_ascii line ends small, List.head?_cons]
    · rcases peek_large line ends large letter.utf8Size_pos with ⟨byte, beyond, seen⟩
      rw [seen, List.head?_cons, Option.any_some, Option.any_some, ascii.eq_false beyond,
        ascii.eq_false large]

/-- A cursor sees an ASCII letter exactly if that letter is behind it. -/
theorem peek_eq_some_iff (line : Nat) (small : letter.toNat < 128)
    (ends : letters <:+ content.toList) :
    (before content line letters).peek content 0 = some letter ↔ letters.head? = some letter := by
  cases letters with
  | nil => simp [peek_nil]
  | cons first rest =>
    rcases Nat.lt_or_ge first.toNat 128 with firstSmall | large
    · rw [peek_ascii line ends firstSmall, List.head?_cons]
    · rcases peek_large line ends large first.utf8Size_pos with ⟨byte, beyond, seen⟩
      rw [seen, List.head?_cons, Option.some_inj, Option.some_inj]
      constructor
      · rintro rfl
        omega
      · rintro rfl
        omega

end Places

/-! ## Following a loop -/

section Loops

variable {content : String} {turn : Cursor → Except Halt Turn} {line : Nat} {letter : Char}
  {front rest letters : List Char}

theorem repeated_of_done {cursor last : Cursor} (turned : turn cursor = .ok (.done last)) :
    repeated content turn cursor = .ok last := by
  rw [repeated, turned]

theorem repeated_of_error {cursor : Cursor} {halt : Halt} (turned : turn cursor = .error halt) :
    repeated content turn cursor = .error halt := by
  rw [repeated, turned]

theorem repeated_of_again {cursor next : Cursor} (turned : turn cursor = .ok (.again next))
    (onward : cursor.position < next.position) (within : next.position ≤ content.utf8ByteSize) :
    repeated content turn cursor = repeated content turn next := by
  rw [repeated, turned]
  exact dif_pos ⟨onward, within⟩

/-- A loop whose turn passes over letters goes on behind them. -/
theorem repeated_before {reached : Nat} (ends : letters <:+ content.toList)
    (left : rest <:+ letters) (shorter : rest.length < letters.length)
    (turned : turn (before content line letters) = .ok (.again (before content reached rest))) :
    repeated content turn (before content line letters) =
      repeated content turn (before content reached rest) :=
  repeated_of_again turned (offset_lt ends left shorter) offset_le

theorem repeated_cons {reached : Nat} (ends : letter :: rest <:+ content.toList)
    (turned : turn (before content line (letter :: rest)) =
      .ok (.again (before content reached rest))) :
    repeated content turn (before content line (letter :: rest)) =
      repeated content turn (before content reached rest) :=
  repeated_before ends (List.suffix_cons _ _) (Nat.lt_succ_self _) turned

theorem passed_of_le {cursor : Cursor} (room : cursor.position + 1 ≤ content.utf8ByteSize) :
    passed content cursor = .ok (.again { cursor with position := cursor.position + 1 }) := by
  rw [passed, Cursor.advance, if_pos room]
  rfl

/-- A turn that passes over every byte beyond ASCII. -/
def PassesLarge (content : String) (turn : Cursor → Except Halt Turn) : Prop :=
  ∀ cursor byte, cursor.peek content 0 = some byte → 128 ≤ byte.toNat →
    turn cursor = passed content cursor

/-- From any byte of a character beyond ASCII, a loop that passes over such
bytes comes to the end of that character. -/
theorem repeated_large (passes : PassesLarge content turn)
    (ends : letter :: rest <:+ content.toList) (large : 128 ≤ letter.toNat) (line : Nat)
    {index : Nat} (within : index ≤ letter.utf8Size) :
    repeated content turn
        { position := offset content (letter :: rest) + index, line := line } =
      repeated content turn (before content line rest) := by
  have moved := offset_cons ends
  have inside : offset content rest ≤ content.utf8ByteSize := offset_le
  rcases Nat.exists_eq_add_of_le within with ⟨left, counted⟩
  induction left generalizing index with
  | zero =>
    rw [before, moved, counted, Nat.add_zero]
  | succ left inductionHypothesis =>
    rcases peek_large line ends large (by omega : index < letter.utf8Size) with ⟨byte, beyond, seen⟩
    have room : offset content (letter :: rest) + index + 1 ≤ content.utf8ByteSize := by omega
    have turned := passes { position := offset content (letter :: rest) + index, line := line }
      byte seen beyond
    rw [passed_of_le room] at turned
    rw [repeated_of_again turned (Nat.lt_succ_self _) room]
    exact @inductionHypothesis (index + 1) (by omega) (by omega)

/-- A loop that passes over the bytes beyond ASCII passes over characters beyond ASCII. -/
theorem repeated_cons_large (passes : PassesLarge content turn)
    (ends : letter :: rest <:+ content.toList) (large : 128 ≤ letter.toNat) :
    repeated content turn (before content line (letter :: rest)) =
      repeated content turn (before content line rest) :=
  repeated_large passes ends large line (Nat.zero_le _)

def lineBehind (line : Nat) (letter : Char) : Nat :=
  if letter = '\n' then line + 1 else line

theorem passed_cons (ends : letter :: rest <:+ content.toList) (small : letter.toNat < 128) :
    passed content (before content line (letter :: rest)) =
      .ok (.again (before content line rest)) := by
  rw [passed, advance_one ends small]
  rfl

theorem passedOver_cons (ends : letter :: rest <:+ content.toList) (small : letter.toNat < 128) :
    passedOver content letter (before content line (letter :: rest)) =
      .ok (.again (before content (lineBehind line letter) rest)) := by
  unfold passedOver lineBehind
  split
  · exact passed_cons ends small
  · exact passed_cons ends small

/-- A run of bytes of a kind is the run of letters of that kind, where bytes and
characters beyond ASCII are of the kind together or not at all. -/
theorem span_before {goesOn : Char → Bool}
    (alike : ∀ letter byte : Char, 128 ≤ letter.toNat → 128 ≤ byte.toNat →
      goesOn letter = goesOn byte)
    (ends : letters <:+ content.toList) :
    span content goesOn (before content line letters) =
      .ok (before content line (letters.dropWhile goesOn)) := by
  unfold span
  induction letters with
  | nil =>
    apply repeated_of_done
    rw [spanTurn, peek_nil]
    rfl
  | cons letter rest inductionHypothesis =>
    have endsRest := (List.suffix_cons letter rest).trans ends
    rcases Nat.lt_or_ge letter.toNat 128 with small | large
    · have seen := peek_ascii line ends small
      cases kind : goesOn letter with
      | true =>
        rw [List.dropWhile_cons_of_pos kind, ← inductionHypothesis endsRest]
        apply repeated_cons ends
        simp only [spanTurn, seen, kind, if_true, passed_cons ends small]
      | false =>
        rw [List.dropWhile_cons_of_neg (Bool.eq_false_iff.mp kind)]
        apply repeated_of_done
        simp only [spanTurn, seen, kind, Bool.false_eq_true, if_false]
    · cases kind : goesOn letter with
      | true =>
        rw [List.dropWhile_cons_of_pos kind, ← inductionHypothesis endsRest]
        apply repeated_cons_large _ ends large
        intro cursor byte seen beyond
        simp only [spanTurn, seen, ← alike letter byte large beyond, kind, if_true]
      | false =>
        rcases peek_large line ends large letter.utf8Size_pos with ⟨byte, beyond, seen⟩
        rw [List.dropWhile_cons_of_neg (Bool.eq_false_iff.mp kind)]
        apply repeated_of_done
        simp only [spanTurn, seen, ← alike letter byte large beyond, kind, Bool.false_eq_true,
          if_false]

/-- A run of bytes of a kind of ASCII letters. -/
theorem Ascii.span_before {goesOn : Char → Bool} (ascii : Ascii goesOn)
    (ends : letters <:+ content.toList) :
    span content goesOn (before content line letters) =
      .ok (before content line (letters.dropWhile goesOn)) := by
  apply Scanner.span_before _ ends
  intro letter byte large beyond
  rw [ascii.eq_false large, ascii.eq_false beyond]

/-- A run of ASCII letters of a kind is as many bytes. -/
theorem Ascii.offset_dropWhile {isOfKind : Char → Bool} (ascii : Ascii isOfKind)
    (ends : letters <:+ content.toList) :
    offset content (letters.dropWhile isOfKind) =
      offset content letters + (letters.takeWhile isOfKind).length := by
  have split : letters.takeWhile isOfKind ++ letters.dropWhile isOfKind = letters :=
    List.takeWhile_append_dropWhile
  have small : ∀ letter ∈ letters.takeWhile isOfKind, letter.toNat < 128 := by
    intro letter member
    exact ascii letter (List.mem_takeWhile_imp member)
  rw [← split] at ends
  have moved := offset_append ends
  rwa [split, utf8Len_of_lt small] at moved

end Loops

end Scanner

end Lua

end LogPipeline
