import Mathlib.Algebra.Ring.Parity
import Mathlib.Data.List.DropRight
import Mathlib.Data.String.Basic
import LogPipeline.Proofs.Number.Digits
import LogPipeline.Text.Quoted

namespace LogPipeline

namespace Quoted

open String (utf8Len utf8EncodeChar)

/-!
# Quoted texts are read back

A quoted text is a text between double quotes whose inside holds no control
character and no double quote without a backslash of its own.  Reading its
escapes from left to right gives the text.

The inside is put together from runs of bytes.  A run begins at the start of the
text or behind an escaped byte, and ends in front of one or at the end.  Escaped
bytes are characters of their own, so a run never cuts a character.
-/

theorem encode_cons (letter : Char) (letters : List Char) :
    encode (letter :: letters) = character letter ++ encode letters :=
  List.flatMap_cons

/-! ## Runs of bytes -/

/-- An ASCII character is escaped as its only byte is. -/
theorem character_eq_getD {letter : Char} (small : letter.toNat < 128) :
    character letter = (escapedByte? (UInt8.ofNat letter.toNat)).getD [letter] := by
  have all : ∀ code : Fin 128, character (Char.ofNat code.val) =
      (escapedByte? (UInt8.ofNat code.val)).getD [Char.ofNat code.val] := by
    decide +kernel
  have same := all ⟨letter.toNat, small⟩
  rwa [Char.ofNat_toNat] at same

theorem utf8EncodeChar_of_lt {letter : Char} (small : letter.toNat < 128) :
    utf8EncodeChar letter = [UInt8.ofNat letter.toNat] := by
  rw [utf8EncodeChar]
  exact if_pos (Nat.le_of_lt_succ small)

/-- A character beyond ASCII stands for itself. -/
theorem character_of_le {letter : Char} (large : 128 ≤ letter.toNat) :
    character letter = [letter] := by
  have noLetter : escapeLetter? letter = none := by
    unfold escapeLetter?
    split <;> first
      | rfl
      | exact absurd large (by decide)
  have noControl : isControl letter = false := by
    rw [isControl, decide_eq_false (by omega), decide_eq_false (by omega)]
    rfl
  rw [character, noLetter, noControl]
  rfl

/-- No byte of a character beyond ASCII is one of ASCII. -/
theorem le_of_mem_utf8EncodeChar {letter : Char} (large : 128 ≤ letter.toNat) :
    ∀ byte ∈ utf8EncodeChar letter, 128 ≤ byte.toNat := by
  have value : letter.val.toNat = letter.toNat := rfl
  intro byte member
  rw [utf8EncodeChar] at member
  split at member
  · omega
  · split at member
    · simp only [List.mem_cons, List.not_mem_nil, or_false] at member
      rcases member with rfl | rfl <;> rw [UInt8.toNat_ofNat'] <;> omega
    · split at member
      · simp only [List.mem_cons, List.not_mem_nil, or_false] at member
        rcases member with rfl | rfl | rfl <;> rw [UInt8.toNat_ofNat'] <;> omega
      · simp only [List.mem_cons, List.not_mem_nil, or_false] at member
        rcases member with rfl | rfl | rfl | rfl <;> rw [UInt8.toNat_ofNat'] <;> omega

/-- Bytes beyond ASCII are not escaped. -/
theorem escapedByte?_of_le {byte : UInt8} (large : 128 ≤ byte.toNat) : escapedByte? byte = none := by
  have all : ∀ byte : Fin 256, 128 ≤ byte.val → escapedByte? (UInt8.ofNat byte.val) = none := by
    decide +kernel
  have same := all ⟨byte.toNat, byte.toNat_lt⟩ large
  rwa [UInt8.ofNat_toNat] at same

/-- A run goes on over bytes that are not escaped. -/
theorem partsFrom_append {bytes : List UInt8} (bare : ∀ byte ∈ bytes, escapedByte? byte = none)
    (start index : Nat) (rest : List UInt8) :
    partsFrom start index (bytes ++ rest) = partsFrom start (index + bytes.length) rest := by
  induction bytes generalizing index with
  | nil => rfl
  | cons byte bytes inductionHypothesis =>
    rw [List.forall_mem_cons] at bare
    rw [List.cons_append, partsFrom, bare.1]
    dsimp only
    rw [inductionHypothesis bare.2, List.length_cons, Nat.add_assoc, Nat.add_comm 1]

/-- A character is taken over, or it ends the run and is escaped. -/
theorem partsFrom_utf8EncodeChar (letter : Char) (start index : Nat) (rest : List UInt8) :
    (character letter = [letter] ∧
      partsFrom start index (utf8EncodeChar letter ++ rest) =
        partsFrom start (index + letter.utf8Size) rest) ∨
      partsFrom start index (utf8EncodeChar letter ++ rest) =
        pendingRun start index ++ .escape (character letter) ::
          partsFrom (index + letter.utf8Size) (index + letter.utf8Size) rest := by
  rw [← String.length_utf8EncodeChar]
  by_cases small : letter.toNat < 128
  · rw [utf8EncodeChar_of_lt small, character_eq_getD small]
    cases escaped : escapedByte? (UInt8.ofNat letter.toNat) with
    | none =>
      left
      refine ⟨rfl, partsFrom_append ?_ start index rest⟩
      simpa using escaped
    | some letters =>
      right
      rw [List.cons_append, partsFrom, escaped]
      rfl
  · left
    refine ⟨character_of_le (by omega), partsFrom_append ?_ start index rest⟩
    intro byte member
    exact escapedByte?_of_le (le_of_mem_utf8EncodeChar (by omega) byte member)

/-- A run lies in the text and its ends are ends of characters. -/
def Part.IsWhole (content : String) : Part → Prop
  | .run start stop =>
    start < stop ∧ String.Pos.Raw.IsValid content ⟨start⟩ ∧ String.Pos.Raw.IsValid content ⟨stop⟩
  | .escape _ => True

/-- The end of characters at the start of a text is one of the text. -/
theorem isValid_utf8Len (front back : List Char) :
    String.Pos.Raw.IsValid (String.ofList (front ++ back)) ⟨utf8Len front⟩ := by
  rw [String.Pos.Raw.isValid_ofList]
  refine ⟨front.length, ?_⟩
  rw [List.take_left, String.utf8ByteSize_ofList]

/-- The pending run is made of the characters since the last escape. -/
theorem pendingRun_spec (front run rest : List Char) :
    (pendingRun (utf8Len front) (utf8Len (front ++ run))).flatMap
        (Part.letters (String.ofList (front ++ (run ++ rest)))) = run ∧
      ∀ part ∈ pendingRun (utf8Len front) (utf8Len (front ++ run)),
        part.IsWhole (String.ofList (front ++ (run ++ rest))) := by
  rw [pendingRun]
  split
  · rename_i nonempty
    constructor
    · rw [List.flatMap_singleton, Part.letters, ← List.append_assoc, String.utf8Len_append,
        String.extract_of_valid, String.toList_ofList]
    · intro part member
      rw [List.mem_singleton] at member
      rw [member]
      refine ⟨nonempty, isValid_utf8Len _ _, ?_⟩
      rw [← List.append_assoc]
      exact isValid_utf8Len _ _
  · rename_i empty
    have nothing : run = [] := by
      rw [String.utf8Len_append] at empty
      exact String.utf8Len_eq_zero.mp (by omega)
    rw [nothing]
    exact ⟨rfl, List.forall_mem_nil _⟩

/-- Behind characters that are dealt with and a run that is pending, the parts
give the run and the other characters as they are written. -/
theorem partsFrom_spec (front run rest : List Char) :
    (partsFrom (utf8Len front) (utf8Len (front ++ run)) (rest.flatMap utf8EncodeChar)).flatMap
        (Part.letters (String.ofList (front ++ (run ++ rest)))) = run ++ encode rest ∧
      ∀ part ∈ partsFrom (utf8Len front) (utf8Len (front ++ run)) (rest.flatMap utf8EncodeChar),
        part.IsWhole (String.ofList (front ++ (run ++ rest))) := by
  induction rest generalizing front run with
  | nil =>
    rcases pendingRun_spec front run [] with ⟨letters, whole⟩
    exact ⟨letters.trans (List.append_nil run).symm, whole⟩
  | cons letter rest inductionHypothesis =>
    have size : utf8Len (front ++ run) + letter.utf8Size =
        utf8Len (front ++ (run ++ [letter])) := by
      simp [Nat.add_assoc]
    have whole : run ++ letter :: rest = (run ++ [letter]) ++ rest := by simp
    rcases partsFrom_utf8EncodeChar letter (utf8Len front) (utf8Len (front ++ run))
      (rest.flatMap utf8EncodeChar) with ⟨bare, taken⟩ | escaped
    · -- The character goes on the run.
      rw [List.flatMap_cons, taken, size, whole, encode_cons, bare, ← List.append_assoc run]
      exact inductionHypothesis front (run ++ [letter])
    · -- The run ends in front of the character, and another may begin behind it.
      rcases pendingRun_spec front run (letter :: rest) with ⟨runLetters, runWhole⟩
      rcases inductionHypothesis (front ++ (run ++ [letter])) [] with ⟨laterLetters, laterWhole⟩
      rw [List.append_nil, List.nil_append, List.append_assoc front, ← whole] at laterLetters
      rw [List.append_nil, List.nil_append, List.append_assoc front, ← whole] at laterWhole
      rw [List.flatMap_cons, escaped, size, encode_cons]
      constructor
      · rw [List.flatMap_append, List.flatMap_cons, runLetters, laterLetters]
        rfl
      · rw [List.forall_mem_append, List.forall_mem_cons]
        exact ⟨runWhole, trivial, laterWhole⟩

theorem bytes_eq (content : String) :
    content.toByteArray.data.toList = content.toList.flatMap utf8EncodeChar := by
  rw [← String.ofList_toList (s := content), String.toByteArray_ofList, String.toList_ofList,
    List.utf8Encode, List.toList_data_toByteArray]

theorem parts_spec (content : String) :
    (parts content).flatMap (Part.letters content) = encode content.toList ∧
      ∀ part ∈ parts content, part.IsWhole content := by
  have spec := partsFrom_spec [] [] content.toList
  rw [List.nil_append, List.nil_append, List.nil_append, String.ofList_toList] at spec
  rw [parts, bytes_eq]
  exact spec

/-- The runs and escapes of a text are its characters as they are written. -/
theorem inside_eq_encode (content : String) : inside content = encode content.toList :=
  (parts_spec content).1

/-! ## Characters between quotes -/

/-- How a character can be written: as itself, as a backslash and the letter that
stands for it, or as a backslash, an `x` and the two digits of its code. -/
inductive Spelling (letter : Char) : List Char → Prop
  | bare (noQuote : letter ≠ '"') (noBackslash : letter ≠ '\\')
      (noControl : isControl letter = false) : Spelling letter [letter]
  | named {escape : Char} (stands : escapedBy? escape = some letter) : Spelling letter ['\\', escape]
  | coded {sixteens units : Nat} (sixteensFit : sixteens < 16) (unitsFit : units < 16)
      (code : Char.ofNat (16 * sixteens + units) = letter) :
      Spelling letter ['\\', 'x', Digits.character sixteens, Digits.character units]

theorem escapedBy?_of_escapeLetter? {letter escape : Char}
    (found : escapeLetter? letter = some escape) : escapedBy? escape = some letter := by
  unfold escapeLetter? at found
  split at found <;> cases found <;> rfl

theorem spelling_character (letter : Char) : Spelling letter (character letter) := by
  rw [character]
  split
  · rename_i escape found
    exact .named (escapedBy?_of_escapeLetter? found)
  · rename_i noLetter
    split
    · rename_i control
      have small : letter.toNat < 128 := by
        rw [isControl, Bool.or_eq_true, decide_eq_true_eq, decide_eq_true_eq] at control
        omega
      rw [Digits.paddedHexadecimal_of_lt 0 (by omega)]
      refine .coded (by omega) (by omega) ?_
      rw [Nat.div_add_mod, Char.ofNat_toNat]
    · rename_i noControl
      refine .bare ?_ ?_ (Bool.not_eq_true _ ▸ noControl)
      · rintro rfl
        cases noLetter
      · rintro rfl
        cases noLetter

variable {letter : Char} {letters : List Char}

/-- Letters of escapes are no control characters, and only a double quote and a
backslash stand for themselves there. -/
theorem escape_of_escapedBy? {escape : Char} (stands : escapedBy? escape = some letter) :
    isControl escape = false ∧ escape ≠ 'x' := by
  unfold escapedBy? at stands
  split at stands <;> first
    | exact ⟨rfl, by decide⟩
    | cases stands

theorem digit_of_lt {digit : Nat} (small : digit < 16) :
    isControl (Digits.character digit) = false ∧ Digits.character digit ≠ '"' ∧
      Digits.character digit ≠ '\\' := by
  have all : ∀ digit : Fin 16, isControl (Digits.character digit) = false ∧
      Digits.character digit ≠ '"' ∧ Digits.character digit ≠ '\\' := by decide
  exact all ⟨digit, small⟩

theorem Spelling.noControl (spelling : Spelling letter letters) :
    ∀ other ∈ letters, isControl other = false := by
  cases spelling with
  | bare _ _ noControl => simpa using noControl
  | named stands =>
    rw [List.forall_mem_cons, List.forall_mem_singleton]
    exact ⟨rfl, (escape_of_escapedBy? stands).1⟩
  | coded sixteensFit unitsFit _ =>
    rw [List.forall_mem_cons, List.forall_mem_cons, List.forall_mem_cons, List.forall_mem_singleton]
    exact ⟨rfl, rfl, (digit_of_lt sixteensFit).1, (digit_of_lt unitsFit).1⟩

/-- No control character is left between the quotes. -/
theorem noControl_of_mem_inside {content : String} (member : letter ∈ inside content) :
    isControl letter = false := by
  rw [inside_eq_encode] at member
  rcases List.mem_flatMap.mp member with ⟨source, -, written⟩
  exact (spelling_character source).noControl letter written

/-- What is written for a character is read as the character. -/
theorem Spelling.decode_append (spelling : Spelling letter letters) (rest : List Char) :
    decode (letters ++ rest) = (decode rest).map (letter :: ·) := by
  cases spelling with
  | bare noQuote noBackslash _ =>
    rw [List.singleton_append, decode]
    all_goals simp [noQuote, noBackslash]
  | named stands =>
    rw [List.cons_append, List.cons_append, List.nil_append, decode, stands]
    intro high low others isCode
    exact absurd isCode (escape_of_escapedBy? stands).2
  | coded sixteensFit unitsFit code =>
    simp only [List.cons_append, List.nil_append, decode, Digits.value?_character_of_lt sixteensFit,
      Digits.value?_character_of_lt unitsFit, code]

/-- Reading the escapes gives the text again. -/
theorem decode_encode (letters : List Char) : decode (encode letters) = some letters := by
  induction letters with
  | nil => rfl
  | cons letter letters inductionHypothesis =>
    rw [encode_cons, (spelling_character letter).decode_append, inductionHypothesis]
    rfl

/-! ## Double quotes and backslashes -/

def backslashes (letters : List Char) : Nat :=
  (letters.reverse.takeWhile (· = '\\')).length

theorem backslashes_append (front back : List Char) :
    backslashes (front ++ back) =
      if backslashes back = back.length then backslashes front + backslashes back
      else backslashes back := by
  rw [backslashes, backslashes, backslashes, List.reverse_append, List.takeWhile_append,
    List.length_reverse]
  split
  · rename_i all
    rw [List.length_append, List.length_reverse, all, Nat.add_comm]
  · rfl

/-- What is written for a character leaves the backslashes behind it paired as
they are. -/
theorem Spelling.even_backslashes (spelling : Spelling letter letters) :
    Even (backslashes letters) := by
  cases spelling with
  | bare _ noBackslash _ => simp [backslashes, noBackslash]
  | @named escape _ =>
    by_cases same : escape = '\\' <;> simp [backslashes, same]
  | coded _ unitsFit _ => simp [backslashes, (digit_of_lt unitsFit).2.2]

/-- A double quote in what is written for a character has a backslash before it. -/
theorem Spelling.backslash_before (spelling : Spelling letter letters) {front back : List Char}
    (quoted : letters = front ++ '"' :: back) : front = ['\\'] := by
  have member : '"' ∈ letters := by
    rw [quoted]
    exact List.mem_append_right front List.mem_cons_self
  cases spelling with
  | bare noQuote _ _ => exact absurd (List.mem_singleton.mp member).symm noQuote
  | named _ =>
    match front with
    | [] => cases (List.cons.inj quoted).1
    | [first] => rw [← (List.cons.inj quoted).1]
    | first :: second :: front => simp at quoted
  | coded sixteensFit unitsFit _ =>
    have noSixteens := (digit_of_lt sixteensFit).2.1.symm
    have noUnits := (digit_of_lt unitsFit).2.1.symm
    simp [noSixteens, noUnits] at member

/-- An odd number of backslashes stands before every double quote of an inside,
so that one of them is its own. -/
theorem odd_backslashes {content front back : List Char}
    (quoted : encode content = front ++ '"' :: back) : Odd (backslashes front) := by
  induction content generalizing front with
  | nil => simp [encode] at quoted
  | cons letter content inductionHypothesis =>
    have spelling := spelling_character letter
    rw [encode_cons, List.append_eq_append_iff] at quoted
    rcases quoted with ⟨more, rfl, rest⟩ | ⟨more, own, rest⟩
    · have odd := inductionHypothesis rest
      rw [backslashes_append]
      split
      · exact spelling.even_backslashes.add_odd odd
      · exact odd
    · cases more with
      | nil => exact absurd (@inductionHypothesis [] rest.symm) (by decide)
      | cons quote more =>
        rw [← (List.cons.inj rest).1] at own
        rw [spelling.backslash_before own]
        decide

/-- A quoted text is put together from runs that cut no character.  It begins and
ends with a double quote; between them there are no control characters, every
double quote has a backslash of its own, and reading the escapes from left to
right gives the text. -/
theorem quote_reads_back (content : String) :
    (∀ part ∈ parts content, part.IsWhole content) ∧
      (quote content).toList = '"' :: ((escape content).toList ++ ['"']) ∧
      (∀ letter ∈ (escape content).toList, isControl letter = false) ∧
      (∀ front back, (escape content).toList = front ++ '"' :: back → Odd (backslashes front)) ∧
      decode (escape content).toList = some content.toList := by
  have letters : (escape content).toList = inside content := by
    rw [escape, String.toList_ofList]
  rw [letters]
  refine ⟨(parts_spec content).2, ?_, fun letter => noControl_of_mem_inside, ?_, ?_⟩
  · rw [quote, String.toList_ofList]
  · intro front back quoted
    rw [inside_eq_encode] at quoted
    exact odd_backslashes quoted
  · rw [inside_eq_encode]
    exact decode_encode content.toList

/-- A character of two bytes between a break and a control character. -/
example : (quote "\né\x01a").toList = "\"\\né\\x01a\"".toList ∧
    decode "\\né\\x01a".toList = some "\né\x01a".toList := by
  decide +kernel

end Quoted

end LogPipeline
