import Mathlib.Algebra.Order.Field.Rat
import LogPipeline.Proofs.Number.Nearest
import LogPipeline.Proofs.Value.Json

namespace LogPipeline

namespace Json

/-!
# JSON text is read back

A reader of JSON text is given by the grammar of the notation: blanks between the
parts, numbers with a fraction and an exponent at will, strings with escapes,
also of characters that take two code units.  Numbers without a fraction and an
exponent are integers, and the members of an object stay in their order.

What is written for a list or a map is read as its items and entries again.
A double is read as the integer that it is where it is written as a whole number,
and as a word where it is no finite number.
-/

/-- What JSON text stands for. -/
inductive Tree where
  | null
  | truth (flag : Bool)
  | integer (value : ℤ)
  | decimal (value : ℚ)
  | string (content : String)
  | array (items : List Tree)
  | object (members : List (String × Tree))

/-! ## Reading -/

def isBlank (letter : Char) : Bool :=
  letter = ' ' || letter = '\t' || letter = '\n' || letter = '\r'

def skipBlanks (letters : List Char) : List Char :=
  letters.dropWhile isBlank

/-- The code unit that four hexadecimal digits at the start of letters spell,
and what follows. -/
def codeUnit? : List Char → Option (Nat × List Char)
  | first :: second :: third :: fourth :: rest =>
    (Digits.read? 16 [first, second, third, fourth]).map fun unit => (unit, rest)
  | _ => none

/-- The character of a code unit, or of two that only mean a character together. -/
def codedCharacter? (letters : List Char) : Option (Char × List Char) := do
  let (unit, after) ← codeUnit? letters
  if 0xd800 ≤ unit ∧ unit < 0xdc00 then
    match after with
    | '\\' :: 'u' :: letters =>
      let (second, after) ← codeUnit? letters
      if 0xdc00 ≤ second ∧ second < 0xe000 then
        return (Char.ofNat (0x10000 + (unit - 0xd800) * 0x400 + (second - 0xdc00)), after)
      else none
    | _ => none
  else if 0xdc00 ≤ unit ∧ unit < 0xe000 then none
  else return (Char.ofNat unit, after)

/-- The character that a letter behind a backslash stands for. -/
def escapedBy? (escape : Char) : Option Char :=
  match escape with
  | '"' => some '"'
  | '\\' => some '\\'
  | '/' => some '/'
  | 'b' => some '\x08'
  | 'f' => some '\x0c'
  | 'n' => some '\n'
  | 'r' => some '\r'
  | 't' => some '\t'
  | _ => none

/-- The character of a string at the start of letters, and what follows. -/
def character? : List Char → Option (Char × List Char)
  | [] => none
  | letter :: rest =>
    if letter = '\\' then
      match rest with
      | [] => none
      | escape :: after =>
        if escape = 'u' then codedCharacter? after
        else (escapedBy? escape).map fun letter => (letter, after)
    else if letter = '"' ∨ letter.toNat < 32 then none
    else some (letter, rest)

/-- The characters of a string up to its closing quote, at most a number of
them, and what follows. -/
def charactersWithin : Nat → List Char → Option (List Char × List Char)
  | 0, _ => none
  | count + 1, letters =>
    if letters.head? = some '"' then some ([], letters.tail)
    else do
      let (letter, after) ← character? letters
      let (inside, rest) ← charactersWithin count after
      return (letter :: inside, rest)

/-- The string whose opening quote has been read, and what follows. -/
def string? (letters : List Char) : Option (String × List Char) :=
  (charactersWithin (letters.length + 1) letters).map fun (inside, rest) =>
    (String.ofList inside, rest)

/-- The digits at the start of letters, of which there must be one, and what follows. -/
def digits? (letters : List Char) : Option (List Char × List Char) :=
  let digits := letters.takeWhile Digits.isDecimal
  if digits.isEmpty then none else some (digits, letters.dropWhile Digits.isDecimal)

/-- The places behind a point, if there is one, and what follows. -/
def places? : List Char → Option (Option (List Char) × List Char)
  | '.' :: rest => (digits? rest).map fun (places, after) => (some places, after)
  | letters => some (none, letters)

/-- The exponent, if there is one, and what follows. -/
def exponent? (letters : List Char) : Option (Option ℤ × List Char) :=
  match letters with
  | [] => some (none, [])
  | mark :: rest =>
    if mark = 'e' ∨ mark = 'E' then do
      let (digits, after) ← digits? (if rest.head? = some '-' ∨ rest.head? = some '+'
        then rest.tail else rest)
      let size : ℤ := Digits.spelled 10 digits
      return (some (if rest.head? = some '-' then -size else size), after)
    else some (none, letters)

/-- The number with a sign, digits, and perhaps places and an exponent. -/
def numberOf (sign : ℤ) (whole : List Char) (places : Option (List Char)) (exponent : Option ℤ) :
    Tree :=
  if places.isNone ∧ exponent.isNone then .integer (sign * Digits.spelled 10 whole)
  else
    let behind := places.getD []
    .decimal (sign * Digits.spelled 10 (whole ++ behind) *
      10 ^ (exponent.getD 0 - behind.length))

/-- A number whose sign has been read: no zero leads its digits but a lone one. -/
def unsigned? (sign : ℤ) (letters : List Char) : Option (Tree × List Char) := do
  let (whole, afterWhole) ← digits? letters
  if whole.head? = some '0' ∧ whole ≠ ['0'] then none
  else
    let (places, afterPlaces) ← places? afterWhole
    let (exponent, rest) ← exponent? afterPlaces
    return (numberOf sign whole places exponent, rest)

/-- The number at the start of letters, and what follows. -/
def number? : List Char → Option (Tree × List Char)
  | '-' :: rest => unsigned? (-1) rest
  | letters => unsigned? 1 letters

def startsNumber (letter : Char) : Bool :=
  Digits.isDecimal letter || letter = '-'

/-- The word at the start of letters, and what follows. -/
def word? (letters : List Char) : Option (Tree × List Char) :=
  ([("null", .null), ("true", .truth true), ("false", .truth false)].find? fun word =>
    word.1.toList.isPrefixOf letters).map fun word => (word.2, letters.drop word.1.length)

mutual

/-- The value at the start of letters, in at most a number of steps, and what
follows. -/
def treeWithin : Nat → List Char → Option (Tree × List Char)
  | 0, _ => none
  | steps + 1, letters =>
    match skipBlanks letters with
    | [] => none
    | first :: rest =>
      if first = '"' then (string? rest).map fun (content, after) => (.string content, after)
      else if first = '[' then
        if (skipBlanks rest).head? = some ']' then some (.array [], (skipBlanks rest).tail)
        else (itemsWithin steps rest).map fun (items, after) => (.array items, after)
      else if first = '\x7b' then
        if (skipBlanks rest).head? = some '\x7d' then some (.object [], (skipBlanks rest).tail)
        else (membersWithin steps rest).map fun (members, after) => (.object members, after)
      else if startsNumber first then number? (first :: rest)
      else word? (first :: rest)

/-- One or more items up to the closing bracket, and what follows it. -/
def itemsWithin : Nat → List Char → Option (List Tree × List Char)
  | 0, _ => none
  | steps + 1, letters => do
    let (item, after) ← treeWithin steps letters
    match skipBlanks after with
    | ']' :: rest => return ([item], rest)
    | ',' :: rest =>
      let (items, rest) ← itemsWithin steps rest
      return (item :: items, rest)
    | _ => none

/-- One or more members up to the closing brace, and what follows it. -/
def membersWithin : Nat → List Char → Option (List (String × Tree) × List Char)
  | 0, _ => none
  | steps + 1, letters =>
    match skipBlanks letters with
    | '"' :: inside => do
      let (key, afterKey) ← string? inside
      match skipBlanks afterKey with
      | ':' :: letters =>
        let (value, after) ← treeWithin steps letters
        match skipBlanks after with
        | '\x7d' :: rest => return ([(key, value)], rest)
        | ',' :: rest =>
          let (members, rest) ← membersWithin steps rest
          return ((key, value) :: members, rest)
        | _ => none
      | _ => none
    | _ => none

end

/-- What JSON text stands for, if it obeys the grammar. -/
def read? (letters : List Char) : Option Tree :=
  match treeWithin (letters.length + 1) letters with
  | some (tree, rest) => if (skipBlanks rest).isEmpty then some tree else none
  | none => none

mutual

/-- What a value is in JSON: an integral double is the integer that it is, any
other finite one its exact value, and what is no finite number is a word. -/
def tree : Value → Tree
  | .text content => .string content
  | .integer number => .integer number.toInt
  | .real number =>
    if number.isIntegral then .integer number.value.floor
    else if number.isFinite then .decimal number.value
    else .string (if number.isNaN then "NaN" else if number.isNegative then "-Inf" else "+Inf")
  | .truth flag => .truth flag
  | .list items => .array (itemTrees items)
  | .map entries => .object (entryTrees entries)

def itemTrees : List Value → List Tree
  | [] => []
  | item :: items => tree item :: itemTrees items

def entryTrees : List (String × Value) → List (String × Tree)
  | [] => []
  | (key, value) :: entries => (key, tree value) :: entryTrees entries

end

theorem skipBlanks_of_bare {first : Char} (bare : isBlank first = false) (rest : List Char) :
    skipBlanks (first :: rest) = first :: rest :=
  List.dropWhile_cons_of_neg (by rw [bare]; exact Bool.false_ne_true)

/-! ## Strings -/

theorem character?_bare {letter : Char} (noControl : 32 ≤ letter.toNat) (noQuote : letter ≠ '"')
    (noBackslash : letter ≠ '\\') (rest : List Char) :
    character? (letter :: rest) = some (letter, rest) := by
  have allowed : ¬ (letter = '"' ∨ letter.toNat < 32) := by
    rintro (isQuote | small)
    · exact noQuote isQuote
    · exact absurd small (Nat.not_lt.mpr noControl)
  rw [character?.eq_def]
  dsimp only
  rw [if_neg noBackslash, if_neg allowed]

theorem character?_code {letter : Char} (small : letter.toNat < 32) (rest : List Char) :
    character? ('\\' :: 'u' :: (Digits.paddedHexadecimal 4 letter.toNat ++ rest)) =
      some (letter, rest) := by
  have spelled : codeUnit? (Digits.paddedHexadecimal 4 letter.toNat ++ rest) =
      some (letter.toNat, rest) := by
    have digits : letter.toNat / 16 < 16 ∧ letter.toNat % 16 < 16 := by omega
    have zero : Digits.value? '0' = some 0 := by decide
    rw [Digits.paddedHexadecimal_of_lt 2 (by omega)]
    change (Digits.read? 16 ['0', '0', _, _]).map _ = _
    simp [Digits.read?, zero, Digits.value?_character_of_lt digits.1,
      Digits.value?_character_of_lt digits.2, digits, Nat.div_add_mod']
  change codedCharacter? _ = _
  rw [codedCharacter?, spelled]
  change (if _ then _ else _) = _
  rw [if_neg (by omega), if_neg (by omega), Char.ofNat_toNat]
  rfl

/-- A character of a string is read as itself. -/
theorem character?_character (letter : Char) (rest : List Char) :
    character? (character letter ++ rest) = some (letter, rest) := by
  unfold character
  split
  case h_8 noQuote noBackslash _ _ _ _ _ =>
    split
    case isTrue small => exact character?_code small rest
    case isFalse large => exact character?_bare (Nat.not_lt.mp large) noQuote noBackslash rest
  all_goals rfl

/-- A character of a string begins with no quote. -/
theorem exists_character_eq_cons (letter : Char) :
    ∃ first others, character letter = first :: others ∧ first ≠ '"' := by
  unfold character
  split
  case h_8 noQuote _ _ _ _ _ _ =>
    split
    case isTrue => exact ⟨'\\', _, rfl, by decide⟩
    case isFalse => exact ⟨letter, [], rfl, noQuote⟩
  all_goals exact ⟨'\\', _, rfl, by decide⟩

theorem charactersWithin_flatMap {count : Nat} {content : List Char}
    (enough : content.length < count) (rest : List Char) :
    charactersWithin count (content.flatMap character ++ '"' :: rest) = some (content, rest) := by
  induction content generalizing count with
  | nil =>
    cases count with
    | zero => cases enough
    | succ count => rfl
  | cons letter content inductionHypothesis =>
    cases count with
    | zero => cases enough
    | succ count =>
      have noEnd (others : List Char) : (character letter ++ others).head? ≠ some '"' := by
        obtain ⟨first, later, same, noQuote⟩ := exists_character_eq_cons letter
        rw [same]
        simpa using noQuote
      rw [List.flatMap_cons, List.append_assoc, charactersWithin, if_neg (noEnd _),
        character?_character]
      change (charactersWithin count _).bind _ = _
      rw [inductionHypothesis (Nat.lt_of_succ_lt_succ enough)]
      rfl

theorem length_le_length_flatMap (content : List Char) :
    content.length ≤ (content.flatMap character).length := by
  induction content with
  | nil => exact Nat.zero_le _
  | cons letter content inductionHypothesis =>
    obtain ⟨first, later, same, -⟩ := exists_character_eq_cons letter
    rw [List.flatMap_cons, List.length_append, same, List.length_cons, List.length_cons]
    omega

/-- A string is read as its content. -/
theorem string?_string (content : String) (rest : List Char) :
    string? (content.toList.flatMap character ++ '"' :: rest) = some (content, rest) := by
  have enough : content.toList.length <
      (content.toList.flatMap character ++ '"' :: rest).length + 1 := by
    have noLonger := length_le_length_flatMap content.toList
    rw [List.length_append]
    omega
  rw [string?, charactersWithin_flatMap enough]
  exact congrArg (fun text => some (text, rest)) String.ofList_toList

theorem treeWithin_string (steps : Nat) (content : String) (rest : List Char) :
    treeWithin (steps + 1) (string content ++ rest) = some (.string content, rest) := by
  rw [string, List.cons_append, List.append_assoc, treeWithin]
  change (string? (content.toList.flatMap character ++ '"' :: rest)).map _ = _
  rw [string?_string]
  rfl

/-! ## Numbers -/

theorem exists_decimal_eq_cons (number : Nat) :
    ∃ first others, Digits.decimal number = first :: others ∧ Digits.isDecimal first = true := by
  obtain ⟨first, others, same⟩ := List.exists_cons_of_ne_nil (Digits.decimal_ne_nil number)
  have digits := Digits.allDecimal_decimal number
  rw [same, Digits.allDecimal_cons] at digits
  exact ⟨first, others, same, digits.1⟩

theorem exists_signed_eq_cons (number : Int) :
    ∃ first others, Digits.signed number = first :: others ∧ startsNumber first = true := by
  cases number with
  | ofNat size =>
    obtain ⟨first, others, same, isDigit⟩ := exists_decimal_eq_cons size
    exact ⟨first, others, same, by rw [startsNumber, isDigit, Bool.true_or]⟩
  | negSucc size => exact ⟨'-', _, rfl, rfl⟩

theorem ne_of_startsNumber {first letter : Char} (starts : startsNumber first = true)
    (noStart : startsNumber letter = false) : first ≠ letter := by
  rintro rfl
  rw [starts] at noStart
  cases noStart

theorem isBlank_of_startsNumber {first : Char} (starts : startsNumber first = true) :
    isBlank first = false := by
  rw [isBlank, decide_eq_false (ne_of_startsNumber starts rfl),
    decide_eq_false (ne_of_startsNumber starts rfl),
    decide_eq_false (ne_of_startsNumber starts rfl),
    decide_eq_false (ne_of_startsNumber starts rfl)]
  rfl

section Numbers

variable {rest : List Char} (closes : Closes rest)
include closes

theorem isDecimal_of_closes : ∀ next ∈ rest.head?, Digits.isDecimal next = false := by
  intro next member
  have delimits := closes next member
  rw [isDelimiter, Bool.or_eq_true, Bool.or_eq_true, decide_eq_true_eq, decide_eq_true_eq,
    decide_eq_true_eq] at delimits
  rcases delimits with (rfl | rfl) | rfl <;> rfl

theorem digits?_decimal (number : Nat) :
    digits? (Digits.decimal number ++ rest) = some (Digits.decimal number, rest) := by
  have taken := (takeWhile_append_iff Digits.isDecimal (Digits.decimal number) rest).mpr
    ⟨Digits.allDecimal_decimal number, isDecimal_of_closes closes⟩
  have someDigit : ¬ (Digits.decimal number).isEmpty = true := by
    rw [List.isEmpty_iff]
    exact Digits.decimal_ne_nil number
  rw [digits?, taken, dropWhile_of_takeWhile taken]
  exact if_neg someDigit

theorem places?_of_closes : places? rest = some (none, rest) := by
  unfold places?
  split
  case h_1 => exact absurd (closes '.' rfl) (by decide)
  case h_2 => rfl

theorem exponent?_of_closes : exponent? rest = some (none, rest) := by
  unfold exponent?
  split
  case h_1 => rfl
  case h_2 mark after =>
    rw [if_neg]
    rintro (rfl | rfl) <;> exact absurd (closes _ rfl) (by decide)

theorem unsigned?_decimal (sign : ℤ) (number : Nat) :
    unsigned? sign (Digits.decimal number ++ rest) = some (.integer (sign * number), rest) := by
  have noZero : ¬ ((Digits.decimal number).head? = some '0' ∧ Digits.decimal number ≠ ['0']) := by
    rintro ⟨leading, noLoneZero⟩
    rcases Nat.eq_zero_or_pos number with rfl | positive
    · exact noLoneZero (Digits.decimal_of_lt (by omega))
    · exact Digits.head?_decimal positive leading
  unfold unsigned?
  rw [digits?_decimal closes]
  change (if _ then _ else _) = _
  rw [if_neg noZero, places?_of_closes closes]
  change (exponent? rest).bind _ = _
  rw [exponent?_of_closes closes]
  change some (Tree.integer (sign * Digits.spelled 10 (Digits.decimal number)), rest) = _
  rw [Digits.spelled_decimal]

/-- A whole number is read as itself. -/
theorem number?_signed (number : ℤ) :
    number? (Digits.signed number ++ rest) = some (.integer number, rest) := by
  cases number with
  | ofNat size =>
    obtain ⟨first, others, same, isDigit⟩ := exists_decimal_eq_cons size
    have read := unsigned?_decimal closes 1 size
    rw [Digits.signed, Int.ofNat_eq_natCast]
    rw [same, List.cons_append, one_mul] at read
    rw [same, List.cons_append]
    unfold number?
    split
    case h_1 minus =>
      rw [(List.cons.inj minus).1] at isDigit
      cases isDigit
    case h_2 => exact read
  | negSucc size =>
    rw [Digits.signed, List.cons_append, number?, unsigned?_decimal closes, neg_one_mul]
    rfl

theorem treeWithin_signed (steps : Nat) (number : ℤ) :
    treeWithin (steps + 1) (Digits.signed number ++ rest) = some (.integer number, rest) := by
  have read := number?_signed closes number
  obtain ⟨first, others, same, starts⟩ := exists_signed_eq_cons number
  rw [same, List.cons_append] at read ⊢
  rw [treeWithin, skipBlanks_of_bare (isBlank_of_startsNumber starts)]
  dsimp only
  rw [if_neg (ne_of_startsNumber starts rfl), if_neg (ne_of_startsNumber starts rfl),
    if_neg (ne_of_startsNumber starts rfl), if_pos starts, read]

end Numbers

/-! ## Values -/

theorem treeWithin_real {number : Binary64} {rest : List Char} (closes : Closes rest)
    (readable : number.isIntegral = true ∨ number.isFinite = false) (steps : Nat) :
    treeWithin (steps + 1) (real number ++ rest) = some (tree (.real number), rest) := by
  rcases readable with integral | infinite
  · rw [real, if_pos integral, treeWithin_signed closes, tree, if_pos integral,
      Binary64.value_of_whole (isIntegral_iff.mp integral).2.1, Rat.floor_intCast]
  · rw [real_of_not_isFinite infinite, treeWithin_string, tree,
      isIntegral_of_not_isFinite infinite, infinite, if_neg Bool.false_ne_true,
      if_neg Bool.false_ne_true, FixedPoint.text, infinite, if_neg Bool.false_ne_true]

/-- A value begins with a letter that is no blank and closes nothing. -/
theorem exists_letters_eq_cons {value : Value}
    (readable : ∀ number ∈ value.reals, number.isIntegral = true ∨ number.isFinite = false) :
    ∃ first others, letters value = first :: others ∧ isBlank first = false ∧ first ≠ ']' := by
  have ofSigned : ∀ number : Int, ∃ first others,
      Digits.signed number = first :: others ∧ isBlank first = false ∧ first ≠ ']' := by
    intro number
    obtain ⟨first, others, same, starts⟩ := exists_signed_eq_cons number
    exact ⟨first, others, same, isBlank_of_startsNumber starts, ne_of_startsNumber starts rfl⟩
  cases value with
  | text content => exact ⟨'"', _, rfl, by decide, by decide⟩
  | integer number => exact ofSigned number.toInt
  | real number =>
    rcases readable number List.mem_cons_self with integral | infinite
    · rw [letters, real, if_pos integral]
      exact ofSigned _
    · rw [letters, real_of_not_isFinite infinite]
      exact ⟨'"', _, rfl, by decide, by decide⟩
  | truth flag =>
    cases flag
    · exact ⟨'f', _, rfl, by decide, by decide⟩
    · exact ⟨'t', _, rfl, by decide, by decide⟩
  | list items => exact ⟨'[', _, rfl, by decide, by decide⟩
  | map entries => exact ⟨'\x7b', _, rfl, by decide, by decide⟩

theorem exists_itemLetters_eq_cons {item : Value} {items : List Value}
    (readable : ∀ number ∈ Value.itemReals (item :: items),
      number.isIntegral = true ∨ number.isFinite = false) :
    ∃ first others, itemLetters (item :: items) = first :: others ∧
      isBlank first = false ∧ first ≠ ']' := by
  rw [Value.itemReals, List.forall_mem_append] at readable
  obtain ⟨first, others, same, noBlank, noEnd⟩ := exists_letters_eq_cons readable.1
  cases items with
  | nil => exact ⟨first, others, by rw [itemLetters, same], noBlank, noEnd⟩
  | cons next items =>
    exact ⟨first, _, by rw [itemLetters, same, List.cons_append], noBlank, noEnd⟩

theorem exists_entryLetters_eq_cons (entry : String × Value) (entries : List (String × Value)) :
    ∃ others, entryLetters (entry :: entries) = '"' :: others := by
  obtain ⟨key, value⟩ := entry
  cases entries with
  | nil => exact ⟨_, rfl⟩
  | cons next entries => exact ⟨_, rfl⟩

mutual

/-- A value inside a list or a map is read as itself. -/
theorem treeWithin_letters {value : Value} {rest : List Char} {steps : Nat}
    (readable : ∀ number ∈ value.reals, number.isIntegral = true ∨ number.isFinite = false)
    (closes : Closes rest) (enough : (letters value).length < steps) :
    treeWithin steps (letters value ++ rest) = some (tree value, rest) := by
  obtain ⟨steps, rfl⟩ := Nat.exists_eq_succ_of_ne_zero (Nat.ne_zero_of_lt enough)
  cases value with
  | text content => exact treeWithin_string steps content rest
  | integer number => exact treeWithin_signed closes steps number.toInt
  | real number => exact treeWithin_real closes (readable number List.mem_cons_self) steps
  | truth flag => cases flag <;> rfl
  | list items =>
    cases items with
    | nil => rfl
    | cons item items =>
      rw [letters, List.length_cons, List.length_append, List.length_singleton] at enough
      have read : itemsWithin steps (itemLetters (item :: items) ++ ']' :: rest) =
          some (itemTrees (item :: items), rest) :=
        itemsWithin_itemLetters (List.cons_ne_nil item items) readable (by omega)
      obtain ⟨first, others, same, noBlank, noEnd⟩ := exists_itemLetters_eq_cons readable
      rw [letters, tree, List.cons_append, List.append_assoc, List.singleton_append]
      rw [same, List.cons_append] at read ⊢
      rw [treeWithin, skipBlanks_of_bare (by decide)]
      change (if (skipBlanks (first :: (others ++ ']' :: rest))).head? = some ']' then _ else _) = _
      rw [skipBlanks_of_bare noBlank, if_neg (by simpa using noEnd), read]
      rfl
  | map entries =>
    cases entries with
    | nil => rfl
    | cons entry entries =>
      rw [letters, List.length_cons, List.length_append, List.length_singleton] at enough
      have read : membersWithin steps (entryLetters (entry :: entries) ++ '\x7d' :: rest) =
          some (entryTrees (entry :: entries), rest) :=
        membersWithin_entryLetters (List.cons_ne_nil entry entries) readable (by omega)
      obtain ⟨others, same⟩ := exists_entryLetters_eq_cons entry entries
      rw [letters, tree, List.cons_append, List.append_assoc, List.singleton_append]
      rw [same, List.cons_append] at read ⊢
      change (membersWithin steps ('"' :: (others ++ '\x7d' :: rest))).map _ = _
      rw [read]
      rfl

/-- The items of a list are read up to its end. -/
theorem itemsWithin_itemLetters {items : List Value} {rest : List Char} {steps : Nat}
    (nonempty : items ≠ [])
    (readable : ∀ number ∈ Value.itemReals items,
      number.isIntegral = true ∨ number.isFinite = false)
    (enough : (itemLetters items).length + 1 < steps) :
    itemsWithin steps (itemLetters items ++ ']' :: rest) = some (itemTrees items, rest) := by
  obtain ⟨steps, rfl⟩ := Nat.exists_eq_succ_of_ne_zero (Nat.ne_zero_of_lt enough)
  match items with
  | [] => exact absurd rfl nonempty
  | [item] =>
    rw [Value.itemReals, Value.itemReals, List.append_nil] at readable
    rw [itemLetters] at enough ⊢
    rw [itemsWithin, treeWithin_letters readable (closes_cons (by decide)) (by omega)]
    rfl
  | item :: next :: items =>
    rw [Value.itemReals, List.forall_mem_append] at readable
    rw [itemLetters, List.length_append, List.length_cons] at enough
    rw [itemLetters, List.append_assoc, List.cons_append, itemsWithin,
      treeWithin_letters readable.1 (closes_cons (by decide)) (by omega)]
    change (itemsWithin steps (itemLetters (next :: items) ++ ']' :: rest)).bind _ = _
    rw [itemsWithin_itemLetters (List.cons_ne_nil next items) readable.2 (by omega)]
    rfl

/-- The entries of a map are read up to its end, in their order. -/
theorem membersWithin_entryLetters {entries : List (String × Value)} {rest : List Char}
    {steps : Nat} (nonempty : entries ≠ [])
    (readable : ∀ number ∈ Value.entryReals entries,
      number.isIntegral = true ∨ number.isFinite = false)
    (enough : (entryLetters entries).length + 1 < steps) :
    membersWithin steps (entryLetters entries ++ '\x7d' :: rest) =
      some (entryTrees entries, rest) := by
  obtain ⟨steps, rfl⟩ := Nat.exists_eq_succ_of_ne_zero (Nat.ne_zero_of_lt enough)
  match entries with
  | [] => exact absurd rfl nonempty
  | [(key, value)] =>
    rw [Value.entryReals, Value.entryReals, List.append_nil] at readable
    rw [entryLetters, List.length_append, List.length_cons] at enough
    rw [entryLetters, string, List.cons_append, List.cons_append, List.append_assoc,
      List.append_assoc]
    unfold membersWithin
    change (string? (key.toList.flatMap character ++ '"' :: _)).bind _ = _
    rw [string?_string]
    change (treeWithin steps (letters value ++ '\x7d' :: rest)).bind _ = _
    rw [treeWithin_letters readable (closes_cons (by decide)) (by omega)]
    rfl
  | (key, value) :: next :: entries =>
    rw [Value.entryReals, List.forall_mem_append] at readable
    rw [entryLetters, List.length_append, List.length_cons, List.length_append,
      List.length_cons] at enough
    rw [entryLetters, string, List.cons_append, List.cons_append, List.append_assoc,
      List.append_assoc]
    unfold membersWithin
    change (string? (key.toList.flatMap character ++ '"' :: _)).bind _ = _
    rw [string?_string]
    change (treeWithin steps ((letters value ++ ',' :: entryLetters (next :: entries)) ++
      '\x7d' :: rest)).bind _ = _
    rw [List.append_assoc, List.cons_append,
      treeWithin_letters readable.1 (closes_cons (by decide)) (by omega)]
    change (membersWithin steps (entryLetters (next :: entries) ++ '\x7d' :: rest)).bind _ = _
    rw [membersWithin_entryLetters (List.cons_ne_nil next entries) readable.2 (by omega)]
    rfl

end

/-- The JSON text of a value is read as the value. -/
theorem read?_letters {value : Value}
    (readable : ∀ number ∈ value.reals, number.isIntegral = true ∨ number.isFinite = false) :
    read? (letters value) = some (tree value) := by
  have closes : Closes [] := by
    intro letter none
    cases none
  have read := treeWithin_letters readable closes (Nat.lt_succ_self _)
  rw [List.append_nil] at read
  rw [read?, read]
  rfl

end Json

namespace Classic

/-- A list or a map that holds no fraction is written outside of rules without
control characters, and read as JSON it is what it was: its items and entries in
their order, its texts and integers unchanged, its doubles as the integers that
they equal, or as words where they are no finite numbers. -/
theorem read?_render {value : Value}
    (nested : (∃ items, value = .list items) ∨ ∃ entries, value = .map entries)
    (readable : ∀ number ∈ value.reals, number.isIntegral = true ∨ number.isFinite = false) :
    Printing.AllPrint (render false value).toList ∧
      Json.read? (render false value).toList = some (Json.tree value) ∧
      ∀ number ∈ value.reals, number.isIntegral = true → number.value = number.value.floor := by
  have rendered : render false value = Json.text value := by
    rcases nested with ⟨items, rfl⟩ | ⟨entries, rfl⟩ <;> rfl
  rw [rendered, Json.text, String.toList_ofList]
  refine ⟨Printing.allPrint_json value, Json.read?_letters readable, ?_⟩
  intro number _ integral
  rw [Binary64.value_of_whole (Json.isIntegral_iff.mp integral).2.1, Rat.floor_intCast]

/-- A map with an integral double, no finite numbers, a control character in a
key, quotes in a text and empty parts. -/
def everyKind : Value :=
  .map [("b\x01", .list [.real ⟨0xc008000000000000⟩, .real ⟨0x7ff8000000000000⟩,
      .real ⟨0xfff0000000000000⟩, .text "a\"\\", .integer (-5)]),
    ("a", .map [("t", .truth true), ("m", .map [])]), ("", .list [])]

theorem read?_render_everyKind :
    (∀ number ∈ everyKind.reals, number.isIntegral = true ∨ number.isFinite = false) ∧
      Printing.AllPrint (render false everyKind).toList ∧
      Json.read? (render false everyKind).toList = some (Json.tree everyKind) ∧
      ∀ number ∈ everyKind.reals, number.isIntegral = true → number.value = number.value.floor := by
  have readable :
      ∀ number ∈ everyKind.reals, number.isIntegral = true ∨ number.isFinite = false := by
    decide +kernel
  exact ⟨readable, read?_render (.inr ⟨_, rfl⟩) readable⟩

/-- A whole number, no number, and a control character. -/
example : render false (.list [.real ⟨0xc008000000000000⟩, .real ⟨0x7ff8000000000000⟩,
    .text "\x01"]) = "[-3,\"NaN\",\"\\u0001\"]" := by
  decide +kernel

end Classic

end LogPipeline
