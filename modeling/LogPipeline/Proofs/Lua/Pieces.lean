import LogPipeline.Lua.Literal
import LogPipeline.Proofs.Lua.Boundary

namespace LogPipeline

namespace Digits

private theorem isHexadecimal_of_foldl {base number : Nat} {letters : List Char}
    {start : Option Nat}
    (read : letters.foldl
      (fun total letter =>
        match total, value? letter with
        | some sum, some digit => if digit < base then some (sum * base + digit) else none
        | _, _ => none) start = some number) :
    start.isSome = true ∧ ∀ letter ∈ letters, isHexadecimal letter = true := by
  induction letters generalizing start with
  | nil => exact ⟨by rw [show start = some number from read]; rfl, by simp⟩
  | cons letter rest inductionHypothesis =>
    rcases inductionHypothesis read with ⟨started, digits⟩
    dsimp only at started
    split at started
    · rename_i sum digit isDigit
      refine ⟨rfl, ?_⟩
      intro other member
      rcases List.mem_cons.mp member with rfl | member
      · rw [isHexadecimal, isDigit]
        rfl
      · exact digits other member
    · cases started

/-- A row of letters that is read as a number consists of digits. -/
theorem isHexadecimal_of_read? {base number : Nat} {letters : List Char}
    (read : read? base letters = some number) :
    letters ≠ [] ∧ ∀ letter ∈ letters, isHexadecimal letter = true := by
  cases letters with
  | nil => cases read
  | cons letter rest => exact ⟨List.cons_ne_nil letter rest, (isHexadecimal_of_foldl read).2⟩

end Digits

namespace Lua

namespace Literal

/-!
# The pieces of a short literal

Inside a short literal a piece is a letter that is no break, or an escape.
Only three escapes depend on what follows them, and they look at one letter:
a break is one break only if no other kind of break follows it, `\z` takes all
blanks, and a decimal escape of less than three digits takes all digits.
-/

/-- Letters that are one piece in front of what follows, with the bytes that
they denote. -/
inductive PieceAt (after : List Char) : List Char → List UInt8 → Prop
  | letter {letter : Char} :
      letter ≠ '\\' → isBreak letter = false → PieceAt after [letter] (letterBytes letter)
  | lineBreak {letter : Char} :
      isBreak letter = true → (∀ next ∈ after.head?, isBreak next = true → letter = next) →
        PieceAt after ['\\', letter] [10]
  | twoBreaks {first second : Char} :
      isBreak first = true → isBreak second = true → first ≠ second →
        PieceAt after ['\\', first, second] [10]
  | skip {blanks : List Char} :
      (∀ letter ∈ blanks, isBlank letter = true) →
        (∀ next ∈ after.head?, isBlank next = false) → PieceAt after ('\\' :: 'z' :: blanks) []
  | named {letter : Char} {byte : UInt8} :
      namedEscape? letter = some byte → PieceAt after ['\\', letter] [byte]
  | hexadecimal {high low : Char} {byte : Nat} :
      Digits.read? 16 [high, low] = some byte →
        PieceAt after ['\\', 'x', high, low] [UInt8.ofNat byte]
  | code {digits : List Char} {code : Nat} :
      Digits.read? 16 digits = some code → code < 0x80000000 →
        PieceAt after ('\\' :: 'u' :: '\x7b' :: (digits ++ ['\x7d'])) (codeBytes code)
  | decimal {digits : List Char} {byte : Nat} :
      (∀ digit ∈ digits, Digits.isDecimal digit = true) → digits.length ≤ 3 →
        Digits.read? 10 digits = some byte → byte ≤ 255 →
          (digits.length < 3 → ∀ next ∈ after.head?, Digits.isDecimal next = false) →
            PieceAt after ('\\' :: digits) [UInt8.ofNat byte]

theorem escape?_cons (letter : Char) (rest : List Char) :
    escape? (letter :: rest) =
      if isBreak letter then some { bytes := [10], size := breakSize (letter :: rest) + 1 }
      else if letter = 'z' then
        some { bytes := [], size := (rest.takeWhile isBlank).length + 2 }
      else if letter = 'x' then hexadecimalEscape? rest
      else if letter = 'u' then codeEscape? rest
      else
        match namedEscape? letter with
        | some byte => some { bytes := [byte], size := 2 }
        | none => decimalEscape? (letter :: rest) := by
  by_cases isLineBreak : isBreak letter = true
  · rw [if_pos isLineBreak]
    have positive : ∃ size, breakSize (letter :: rest) = size + 1 := by
      cases rest with
      | nil => exact ⟨0, by simp [breakSize, isLineBreak]⟩
      | cons second rest =>
        rw [breakSize, if_pos isLineBreak]
        split
        · exact ⟨1, rfl⟩
        · exact ⟨0, rfl⟩
    rcases positive with ⟨size, same⟩
    unfold escape?
    rw [same]
  · have noSize : breakSize (letter :: rest) = 0 := by
      cases rest <;> simp [breakSize, isLineBreak]
    rw [if_neg isLineBreak]
    unfold escape?
    rw [noSize]
    cases named : namedEscape? letter <;> split <;> simp_all

theorem noBreak_of_namedEscape? {letter : Char} {byte : UInt8}
    (named : namedEscape? letter = some byte) : isBreak letter = false := by
  cases isLineBreak : isBreak letter with
  | false => rfl
  | true =>
    simp only [isBreak, Bool.or_eq_true, decide_eq_true_eq] at isLineBreak
    rcases isLineBreak with rfl | rfl <;> cases named

theorem namedEscape?_of_isDecimal {digit : Char} (isDigit : Digits.isDecimal digit = true) :
    namedEscape? digit = none := by
  unfold namedEscape?
  split <;> first | rfl | cases isDigit

theorem ne_of_isDecimal {digit other : Char} (isDigit : Digits.isDecimal digit = true)
    (noDigit : Digits.isDecimal other = false) : digit ≠ other := by
  rintro rfl
  rw [noDigit] at isDigit
  cases isDigit

/-- A decimal escape takes as many digits as there are, up to three. -/
theorem decimal_of_decimalEscape? {letters : List Char} {piece : Piece}
    (read : decimalEscape? letters = some piece) :
    ∃ digits after byte, letters = digits ++ after ∧
      piece = { bytes := [UInt8.ofNat byte], size := digits.length + 1 } ∧
      (∀ digit ∈ digits, Digits.isDecimal digit = true) ∧ digits.length ≤ 3 ∧
      Digits.read? 10 digits = some byte ∧ byte ≤ 255 ∧
      (digits.length < 3 → ∀ next ∈ after.head?, Digits.isDecimal next = false) := by
  unfold decimalEscape? at read
  dsimp only at read
  generalize isDigits : (letters.take 3).takeWhile Digits.isDecimal = digits at read
  split at read
  · rename_i byte number
    split at read
    · rename_i small
      cases read
      have whole := List.takeWhile_append_dropWhile (p := Digits.isDecimal) (l := letters.take 3)
      rw [isDigits] at whole
      have split := List.take_append_drop 3 letters
      rw [← whole, List.append_assoc] at split
      have atMost : (digits ++ (letters.take 3).dropWhile Digits.isDecimal).length ≤ 3 := by
        rw [whole]
        exact List.length_take_le 3 letters
      rw [List.length_append] at atMost
      refine ⟨digits, _, byte, split.symm, rfl, ?_, by omega, number, small, ?_⟩
      · rw [← isDigits]
        exact passes_of_mem_takeWhile
      · intro short next member
        cases left : (letters.take 3).dropWhile Digits.isDecimal with
        | nil =>
          rw [left, List.append_nil] at whole
          have few : letters.length < 3 := by
            have lengths := congrArg List.length whole
            rw [List.length_take] at lengths
            omega
          rw [left, List.drop_eq_nil_of_le (by omega)] at member
          cases member
        | cons head rest =>
          have stops := @fails_of_head?_dropWhile _ Digits.isDecimal (letters.take 3)
          rw [left] at member stops
          exact stops next member
    · cases read
  · cases read

/-- An escaped line break takes a different break after it as well. -/
private theorem pieceAt_of_break {letter : Char} (isLineBreak : isBreak letter = true)
    (rest : List Char) :
    ∃ tail after, letter :: rest = tail ++ after ∧ breakSize (letter :: rest) = tail.length ∧
      PieceAt after ('\\' :: tail) [10] := by
  cases rest with
  | nil =>
    refine ⟨[letter], [], rfl, ?_, .lineBreak isLineBreak (by simp)⟩
    simp [breakSize, isLineBreak]
  | cons second rest =>
    rw [breakSize, if_pos isLineBreak]
    split
    · rename_i pairs
      simp only [Bool.and_eq_true, decide_eq_true_eq] at pairs
      exact ⟨[letter, second], rest, rfl, rfl, .twoBreaks isLineBreak pairs.1 pairs.2⟩
    · rename_i single
      simp only [Bool.and_eq_true, decide_eq_true_eq, not_and, Decidable.not_not] at single
      refine ⟨[letter], second :: rest, rfl, rfl, .lineBreak isLineBreak ?_⟩
      simpa using single

private theorem pieceAt_of_codeEscape? {letters : List Char} {piece : Piece}
    (read : codeEscape? letters = some piece) :
    ∃ tail after, letters = tail ++ after ∧ piece.size = tail.length + 2 ∧
      PieceAt after ('\\' :: 'u' :: tail) piece.bytes := by
  unfold codeEscape? at read
  split at read
  · rename_i inner
    dsimp only at read
    split at read
    · rename_i code after number closes
      split at read
      · rename_i small
        cases read
        refine ⟨'\x7b' :: (inner.takeWhile Digits.isHexadecimal ++ ['\x7d']), after, ?_, by simp,
          .code number small⟩
        have whole := @List.takeWhile_append_dropWhile _ Digits.isHexadecimal inner
        rw [closes] at whole
        simp [whole]
      · cases read
    · cases read
  · cases read

/-- A piece that is read is a piece. -/
theorem pieceAt_of_piece? {first : Char} {rest : List Char} {piece : Piece}
    (read : piece? first rest = some piece) :
    ∃ tail after, rest = tail ++ after ∧ piece.size = tail.length + 1 ∧
      PieceAt after (first :: tail) piece.bytes := by
  rw [piece?] at read
  split at read
  · rename_i isEscape
    subst isEscape
    cases rest with
    | nil => cases read
    | cons letter rest =>
      rw [escape?_cons] at read
      split at read
      · rename_i isLineBreak
        cases read
        rcases pieceAt_of_break isLineBreak rest with ⟨tail, after, whole, size, isPiece⟩
        exact ⟨tail, after, whole, congrArg (· + 1) size, isPiece⟩
      rename_i noBreak
      split at read
      · rename_i isSkip
        subst isSkip
        cases read
        refine ⟨'z' :: rest.takeWhile isBlank, rest.dropWhile isBlank, by simp, by simp, .skip ?_ ?_⟩
        · exact passes_of_mem_takeWhile
        · exact fails_of_head?_dropWhile
      rename_i noSkip
      split at read
      · rename_i isHexadecimal
        subst isHexadecimal
        match rest, read with
        | [], read => cases read
        | [_], read => cases read
        | high :: low :: rest, read =>
          rcases Option.map_eq_some_iff.mp read with ⟨byte, digits, rfl⟩
          exact ⟨['x', high, low], rest, rfl, rfl, .hexadecimal digits⟩
      rename_i noHexadecimal
      split at read
      · rename_i isCode
        subst isCode
        rcases pieceAt_of_codeEscape? read with ⟨tail, after, rfl, size, isPiece⟩
        exact ⟨'u' :: tail, after, rfl, size, isPiece⟩
      rename_i noCode
      split at read
      · rename_i byte named
        cases read
        exact ⟨[letter], rest, rfl, rfl, .named named⟩
      · rcases decimal_of_decimalEscape? read with
          ⟨digits, after, byte, same, rfl, areDigits, short, number, small, stops⟩
        exact ⟨digits, after, same, rfl, .decimal areDigits short number small stops⟩
  · rename_i noEscape
    split at read
    · cases read
    · rename_i noBreak
      cases read
      exact ⟨[], rest, rfl, rfl, .letter noEscape (by simpa using noBreak)⟩

/-- The digits of a decimal escape are the ones that are taken for it. -/
theorem decimalDigits_append {digits after : List Char}
    (areDigits : ∀ digit ∈ digits, Digits.isDecimal digit = true) (short : digits.length ≤ 3)
    (stops : digits.length < 3 → ∀ next ∈ after.head?, Digits.isDecimal next = false) :
    ((digits ++ after).take 3).takeWhile Digits.isDecimal = digits := by
  rw [List.take_append, List.take_of_length_le short]
  refine (takeWhile_append_iff _ _ _).mpr ⟨areDigits, ?_⟩
  intro next member
  rcases Nat.lt_or_ge digits.length 3 with few | many
  · refine stops few next ?_
    rwa [List.head?_take, if_neg (by omega)] at member
  · rw [show 3 - digits.length = 0 by omega] at member
    cases member

/-- After a backslash a digit begins a decimal escape. -/
theorem escape?_of_isDecimal {digit : Char} (isDigit : Digits.isDecimal digit = true)
    (rest : List Char) : escape? (digit :: rest) = decimalEscape? (digit :: rest) := by
  have noBreak : ¬ isBreak digit = true := by
    have noFeed := ne_of_isDecimal isDigit (show Digits.isDecimal '\n' = false by decide)
    have noReturn := ne_of_isDecimal isDigit (show Digits.isDecimal '\r' = false by decide)
    simp [isBreak, noFeed, noReturn]
  rw [escape?_cons, if_neg noBreak,
    if_neg (ne_of_isDecimal isDigit (show Digits.isDecimal 'z' = false by decide)),
    if_neg (ne_of_isDecimal isDigit (show Digits.isDecimal 'x' = false by decide)),
    if_neg (ne_of_isDecimal isDigit (show Digits.isDecimal 'u' = false by decide)),
    namedEscape?_of_isDecimal isDigit]

/-- A piece is read in front of what follows it. -/
theorem piece?_of_pieceAt {letters after : List Char} {bytes : List UInt8}
    (piece : PieceAt after letters bytes) :
    ∃ first tail, letters = first :: tail ∧
      piece? first (tail ++ after) = some { bytes := bytes, size := tail.length + 1 } := by
  cases piece with
  | @letter letter noEscape noBreak => exact ⟨letter, [], rfl, by simp [piece?, noEscape, noBreak]⟩
  | @lineBreak letter isLineBreak single =>
    refine ⟨'\\', [letter], rfl, ?_⟩
    rw [piece?, if_pos rfl, List.singleton_append, escape?_cons, if_pos isLineBreak]
    cases after with
    | nil => simp [breakSize, isLineBreak]
    | cons next rest =>
      have noPair : ¬ (isBreak next && letter ≠ next) = true := by simpa using single
      rw [breakSize, if_pos isLineBreak, if_neg noPair]
      rfl
  | @twoBreaks first second isFirst isSecond differ =>
    refine ⟨'\\', [first, second], rfl, ?_⟩
    rw [piece?, if_pos rfl, List.cons_append, escape?_cons, if_pos isFirst, List.singleton_append,
      breakSize, if_pos isFirst, if_pos (by simp [isSecond, differ])]
    rfl
  | @skip blanks blank stops =>
    refine ⟨'\\', 'z' :: blanks, rfl, ?_⟩
    have same := (takeWhile_append_iff isBlank blanks after).mpr ⟨blank, stops⟩
    rw [piece?, if_pos rfl, List.cons_append, escape?_cons, if_neg (by decide), if_pos rfl, same]
    rfl
  | @named letter byte named =>
    refine ⟨'\\', [letter], rfl, ?_⟩
    have noBreak : ¬ isBreak letter = true := by simp [noBreak_of_namedEscape? named]
    have noSkip : letter ≠ 'z' := by rintro rfl; cases named
    have noHexadecimal : letter ≠ 'x' := by rintro rfl; cases named
    have noCode : letter ≠ 'u' := by rintro rfl; cases named
    rw [piece?, if_pos rfl, List.singleton_append, escape?_cons, if_neg noBreak, if_neg noSkip,
      if_neg noHexadecimal, if_neg noCode, named]
    rfl
  | @hexadecimal high low byte read =>
    refine ⟨'\\', ['x', high, low], rfl, ?_⟩
    rw [piece?, if_pos rfl, List.cons_append, escape?_cons, if_neg (by decide),
      if_neg (by decide), if_pos rfl]
    change (Digits.read? 16 [high, low]).map _ = _
    rw [read]
    rfl
  | @code digits code read small =>
    refine ⟨'\\', 'u' :: '\x7b' :: (digits ++ ['\x7d']), rfl, ?_⟩
    rw [piece?, if_pos rfl, List.cons_append, escape?_cons, if_neg (by decide),
      if_neg (by decide), if_neg (by decide), if_pos rfl, List.cons_append, List.append_assoc,
      codeEscape?]
    have same : (digits ++ (['\x7d'] ++ after)).takeWhile Digits.isHexadecimal = digits :=
      (takeWhile_append_iff _ _ _).mpr ⟨(Digits.isHexadecimal_of_read? read).2, by simp; decide⟩
    rw [same, dropWhile_of_takeWhile same, read]
    simp [small]
  | @decimal digits byte areDigits short read small stops =>
    refine ⟨'\\', digits, rfl, ?_⟩
    rcases List.exists_cons_of_ne_nil (Digits.isHexadecimal_of_read? read).1 with ⟨digit, more, rfl⟩
    have isDigit := areDigits digit List.mem_cons_self
    rw [piece?, if_pos rfl, List.cons_append, escape?_of_isDecimal isDigit, ← List.cons_append,
      decimalEscape?, decimalDigits_append areDigits short stops, read]
    simp [small]

/-- What follows a piece matters by its first letter only. -/
theorem pieceAt_congr {letters after other : List Char} {bytes : List UInt8}
    (same : after.head? = other.head?) (piece : PieceAt after letters bytes) :
    PieceAt other letters bytes := by
  cases piece with
  | letter noEscape noBreak => exact .letter noEscape noBreak
  | lineBreak isLineBreak single => exact .lineBreak isLineBreak (same ▸ single)
  | twoBreaks isFirst isSecond differ => exact .twoBreaks isFirst isSecond differ
  | skip blank stops => exact .skip blank (same ▸ stops)
  | named named => exact .named named
  | hexadecimal read => exact .hexadecimal read
  | code read small => exact .code read small
  | decimal areDigits short read small stops =>
    exact .decimal areDigits short read small (same ▸ stops)

/-- Letters of a short literal after its opening quote, up to and including its
closing quote, with the bytes that they denote. -/
inductive Pieces (quote : Char) : List Char → List UInt8 → Prop
  | close : Pieces quote [quote] []
  | piece {letters inside : List Char} {bytes more : List UInt8} :
      letters.head? ≠ some quote → PieceAt inside letters bytes → Pieces quote inside more →
        Pieces quote (letters ++ inside) (bytes ++ more)

theorem Pieces.ne_nil {quote : Char} {inside : List Char} {bytes : List UInt8}
    (pieces : Pieces quote inside bytes) : inside ≠ [] := by
  induction pieces with
  | close => exact List.cons_ne_nil quote []
  | piece _ _ _ inductionHypothesis => exact List.append_ne_nil_of_right_ne_nil _ inductionHypothesis

private theorem head?_append_of_ne_nil {inside : List Char} (nonempty : inside ≠ [])
    (after : List Char) : inside.head? = (inside ++ after).head? := by
  cases inside with
  | nil => exact absurd rfl nonempty
  | cons letter rest => rfl

theorem piecesFrom_held (quote : Char) (held letters : List Char) :
    piecesFrom quote held.length (held ++ letters) =
      (piecesFrom quote 0 letters).map fun (bytes, inside, after) =>
        (bytes, held ++ inside, after) := by
  induction held with
  | nil =>
    rw [List.nil_append, List.length_nil]
    cases piecesFrom quote 0 letters <;> rfl
  | cons letter held inductionHypothesis =>
    rw [List.cons_append, List.length_cons, piecesFrom, inductionHypothesis, Option.map_map]
    rfl

theorem pieces_of_piecesFrom {quote : Char} {count : Nat} {letters inside after : List Char}
    {bytes : List UInt8}
    (read : piecesFrom quote count letters = some (bytes, inside, after)) :
    ∃ held rest, inside = held ++ rest ∧ held.length = count ∧ inside ++ after = letters ∧
      Pieces quote rest bytes := by
  induction letters generalizing count inside bytes with
  | nil => cases count <;> cases read
  | cons letter letters inductionHypothesis =>
    cases count with
    | succ count =>
      rcases Option.map_eq_some_iff.mp read with ⟨⟨bytes', inside', after'⟩, readRest, same⟩
      cases same
      rcases inductionHypothesis readRest with ⟨held, rest, rfl, rfl, rfl, pieces⟩
      exact ⟨letter :: held, rest, rfl, rfl, rfl, pieces⟩
    | zero =>
      rw [piecesFrom] at read
      split at read
      · rename_i closes
        cases read
        exact ⟨[], [letter], rfl, rfl, rfl, closes ▸ .close⟩
      · rename_i noQuote
        split at read
        · cases read
        · rename_i piece isPiece
          rcases Option.map_eq_some_iff.mp read with ⟨⟨bytes', inside', after'⟩, readRest, same⟩
          cases same
          rcases inductionHypothesis readRest with ⟨held, rest, rfl, count, whole, pieces⟩
          rcases pieceAt_of_piece? isPiece with ⟨tail, behind, rfl, size, pieceAt⟩
          rw [List.append_assoc] at whole
          rcases List.append_inj whole (by omega) with ⟨rfl, rfl⟩
          refine ⟨[], letter :: (held ++ rest), rfl, rfl, ?_, ?_⟩
          · rw [List.cons_append, List.append_assoc]
          · rw [← List.cons_append]
            refine .piece (by simpa using noQuote) (pieceAt_congr ?_ pieceAt) pieces
            exact (head?_append_of_ne_nil pieces.ne_nil after).symm

/-- A piece in front of pieces adds its bytes. -/
theorem pieces?_append {quote : Char} {letters rest : List Char} {bytes : List UInt8}
    (noQuote : letters.head? ≠ some quote) (piece : PieceAt rest letters bytes) :
    pieces? quote (letters ++ rest) =
      (pieces? quote rest).map fun (more, inside, after) =>
        (bytes ++ more, letters ++ inside, after) := by
  rcases piece?_of_pieceAt piece with ⟨first, tail, rfl, read⟩
  have differs : first ≠ quote := by simpa using noQuote
  rw [pieces?, pieces?, List.cons_append, piecesFrom, if_neg differs, read]
  change (piecesFrom quote tail.length (tail ++ rest)).map _ = _
  rw [piecesFrom_held, Option.map_map]
  rfl

/-- What is read as the inside of a short literal is a row of pieces up to the
closing quote, whatever follows it. -/
theorem pieces?_eq_some_iff {quote : Char} {letters inside after : List Char}
    {bytes : List UInt8} :
    pieces? quote letters = some (bytes, inside, after) ↔
      inside ++ after = letters ∧ Pieces quote inside bytes := by
  constructor
  · intro read
    rcases pieces_of_piecesFrom read with ⟨held, rest, rfl, noneHeld, whole, pieces⟩
    cases List.eq_nil_of_length_eq_zero noneHeld
    exact ⟨whole, pieces⟩
  · rintro ⟨rfl, pieces⟩
    induction pieces with
    | close =>
      rw [pieces?, List.singleton_append, piecesFrom, if_pos rfl]
    | @piece letters inside bytes more noQuote piece pieces inductionHypothesis =>
      have inFront := pieceAt_congr (head?_append_of_ne_nil pieces.ne_nil after) piece
      rw [List.append_assoc, pieces?_append noQuote inFront, inductionHypothesis]
      rfl

/-! ## Pieces and the splitting of scripts -/

def IsOrdinary (quote letter : Char) : Prop :=
  isBreak letter = false ∧ letter ≠ '\\' ∧ letter ≠ quote

theorem isOrdinary_of_isNamePart {quote letter : Char} (isQuote : quote = '"' ∨ quote = '\'')
    (isPart : isNamePart letter = true) : IsOrdinary quote letter := by
  have differs {other : Char} (noPart : isNamePart other = false) : letter ≠ other := by
    rintro rfl
    rw [noPart] at isPart
    cases isPart
  have noFeed := differs (show isNamePart '\n' = false by decide)
  have noReturn := differs (show isNamePart '\r' = false by decide)
  refine ⟨by simp [isBreak, noFeed, noReturn], differs (by decide), ?_⟩
  rcases isQuote with rfl | rfl <;> exact differs (by decide)

theorem isNamePart_of_isDecimal {letter : Char} (isDigit : Digits.isDecimal letter = true) :
    isNamePart letter = true := by
  rw [isNamePart, isDigit, Bool.or_true]

theorem isStringRest_ordinary {quote : Char} {letters : List Char}
    (ordinary : ∀ letter ∈ letters, IsOrdinary quote letter) (rest : List Char) :
    isStringRest quote .plain (letters ++ rest) = isStringRest quote .plain rest := by
  induction letters with
  | nil => rfl
  | cons letter letters inductionHypothesis =>
    rcases ordinary letter List.mem_cons_self with ⟨noBreak, noEscape, noQuote⟩
    rw [List.cons_append, isStringRest_plain_cons, if_neg (by simp [noBreak]), if_neg noEscape,
      if_neg noQuote]
    exact inductionHypothesis fun other member =>
      ordinary other (List.mem_cons_of_mem letter member)

theorem isStringRest_escape {quote letter : Char} (noBreak : isBreak letter = false)
    (noSkip : letter ≠ 'z') (rest : List Char) :
    isStringRest quote .plain ('\\' :: letter :: rest) = isStringRest quote .plain rest := by
  rw [isStringRest_plain_cons, if_neg (by decide), if_pos rfl, isStringRest_escaped_cons,
    if_neg (by simp [noBreak]), if_neg noSkip]

theorem isStringRest_blanks {quote : Char} {blanks : List Char}
    (blank : ∀ letter ∈ blanks, isBlank letter = true) (rest : List Char) :
    isStringRest quote .skipping (blanks ++ rest) = isStringRest quote .skipping rest := by
  induction blanks with
  | nil => rfl
  | cons letter blanks inductionHypothesis =>
    rw [List.cons_append, isStringRest_skipping_cons, if_pos (blank letter List.mem_cons_self)]
    exact inductionHypothesis fun other member => blank other (List.mem_cons_of_mem letter member)

/-- A piece that does not begin with the closing quote leads from outside any
escape to outside any escape. -/
theorem isStringRest_pieceAt {quote : Char} {letters inside : List Char} {bytes : List UInt8}
    (isQuote : quote = '"' ∨ quote = '\'') (noQuote : letters.head? ≠ some quote)
    (piece : PieceAt inside letters bytes) (nonempty : inside ≠ []) :
    isStringRest quote .plain (letters ++ inside) = isStringRest quote .plain inside := by
  rcases List.exists_cons_of_ne_nil nonempty with ⟨next, rest, rfl⟩
  cases piece with
  | @letter letter noEscape noBreak =>
    refine isStringRest_ordinary ?_ _
    intro other member
    cases List.mem_singleton.mp member
    exact ⟨noBreak, noEscape, by simpa using noQuote⟩
  | @lineBreak letter isLineBreak single =>
    have noPair : ¬ (isBreak next && next ≠ letter) = true := by
      have noOther := single next rfl
      simp only [Bool.and_eq_true, decide_eq_true_eq, not_and, Decidable.not_not]
      exact fun isNext => (noOther isNext).symm
    rw [List.cons_append, isStringRest_plain_cons, if_neg (by decide), if_pos rfl,
      List.singleton_append, isStringRest_escaped_cons, if_pos isLineBreak,
      isStringRest_broken_cons, if_neg noPair]
  | @twoBreaks first second isFirst isSecond differ =>
    have pairs : (isBreak second && second ≠ first) = true := by
      simp [isSecond, Ne.symm differ]
    rw [List.cons_append, isStringRest_plain_cons, if_neg (by decide), if_pos rfl,
      List.cons_append, isStringRest_escaped_cons, if_pos isFirst, List.singleton_append,
      isStringRest_broken_cons, if_pos pairs]
  | @skip blanks blank stops =>
    rw [List.cons_append, isStringRest_plain_cons, if_neg (by decide), if_pos rfl,
      List.cons_append, isStringRest_escaped_cons, if_neg (by decide), if_pos rfl,
      isStringRest_blanks blank, isStringRest_skipping_cons, if_neg (by simp [stops next rfl])]
  | @named letter byte named =>
    exact isStringRest_escape (noBreak_of_namedEscape? named) (by rintro rfl; cases named) _
  | @hexadecimal high low byte read =>
    have digits := (Digits.isHexadecimal_of_read? read).2
    have ordinary : ∀ digit ∈ [high, low], IsOrdinary quote digit := fun digit member =>
      isOrdinary_of_isNamePart isQuote (isNamePart_of_isHexadecimal (digits digit member))
    rw [List.cons_append, List.cons_append, isStringRest_escape rfl (by decide)]
    exact isStringRest_ordinary ordinary _
  | @code digits code read small =>
    have areDigits := (Digits.isHexadecimal_of_read? read).2
    rw [List.cons_append, List.cons_append, isStringRest_escape rfl (by decide)]
    refine isStringRest_ordinary ?_ _
    intro letter member
    simp only [List.mem_cons, List.mem_append, List.not_mem_nil, or_false] at member
    rcases member with rfl | member | rfl
    · exact ⟨rfl, by decide, by rcases isQuote with rfl | rfl <;> decide⟩
    · exact isOrdinary_of_isNamePart isQuote (isNamePart_of_isHexadecimal (areDigits letter member))
    · exact ⟨rfl, by decide, by rcases isQuote with rfl | rfl <;> decide⟩
  | @decimal digits byte areDigits short read small stops =>
    rcases List.exists_cons_of_ne_nil (Digits.isHexadecimal_of_read? read).1 with ⟨digit, more, rfl⟩
    have isPart (letter : Char) (member : letter ∈ digit :: more) :=
      isNamePart_of_isDecimal (areDigits letter member)
    have first := isOrdinary_of_isNamePart isQuote (isPart digit List.mem_cons_self)
    have noSkip := ne_of_isDecimal (areDigits digit List.mem_cons_self)
      (show Digits.isDecimal 'z' = false by decide)
    rw [List.cons_append, List.cons_append, isStringRest_escape first.1 noSkip]
    refine isStringRest_ordinary ?_ _
    exact fun letter member =>
      isOrdinary_of_isNamePart isQuote (isPart letter (List.mem_cons_of_mem digit member))

/-- The inside of a short literal is the rest of a short string. -/
theorem isStringRest_of_pieces {quote : Char} {inside : List Char} {bytes : List UInt8}
    (isQuote : quote = '"' ∨ quote = '\'') (pieces : Pieces quote inside bytes) :
    isStringRest quote .plain inside = true := by
  induction pieces with
  | close => rcases isQuote with rfl | rfl <;> rfl
  | piece noQuote piece pieces inductionHypothesis =>
    rw [isStringRest_pieceAt isQuote noQuote piece pieces.ne_nil]
    exact inductionHypothesis

end Literal

end Lua

end LogPipeline
