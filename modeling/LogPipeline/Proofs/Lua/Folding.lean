import LogPipeline.Proofs.Lua.Interpreting

namespace LogPipeline

namespace Lua

namespace Literal

/-!
# What a string denotes after it is folded

Folding a string onto one line keeps its bytes, with one exception.  A decimal
escape takes up to three digits, and one that has fewer ends before the next
letter that is no digit.  If this letter begins `\z`, the folding takes `\z` and
its blanks away, and a digit behind them joins the escape.  Nothing else that is
taken away or written anew changes what stands beside it.

Where this happens the bytes are not kept in any other way either: every digit
that joins an escape is a byte less.
-/

/-- What is left of letters once every `\z` at their start is gone, with the
blanks that it skips. -/
def afterSkips : Bool → List Char → List Char
  | _, '\\' :: 'z' :: rest => afterSkips true rest
  | true, letter :: rest => if isBlank letter then afterSkips true rest else letter :: rest
  | _, letters => letters

/-- Whether a decimal escape of less than three digits stands at the start of
letters, given what follows its backslash, and is kept from the digit after it
by nothing but `\z`. -/
def runsOn (letters : List Char) : Bool :=
  let digits := (letters.take 3).takeWhile Digits.isDecimal
  0 < digits.length && digits.length < 3 &&
    (afterSkips false (letters.drop digits.length)).head?.any Digits.isDecimal

/-- Whether some piece of a short literal is a decimal escape that runs on,
given how many letters still belong to the last piece. -/
def someRunsOnFrom (quote : Char) : Nat → List Char → Bool
  | _, [] => false
  | held + 1, _ :: rest => someRunsOnFrom quote held rest
  | 0, letter :: rest =>
    if letter = quote then false
    else
      match piece? letter rest with
      | none => false
      | some piece =>
        (letter = '\\' && runsOn rest) || someRunsOnFrom quote (piece.size - 1) rest

/-- Whether a literal is short and some decimal escape in it runs on once every
`\z` is gone. -/
def someRunsOn : List Char → Bool
  | quote :: rest => (quote = '"' || quote = '\'') && someRunsOnFrom quote 0 rest
  | [] => false

/-! ## Short literals -/

theorem foldShort_plain_append {letters : List Char} (noEscape : ∀ letter ∈ letters, letter ≠ '\\')
    (rest : List Char) :
    foldShort .plain (letters ++ rest) = letters ++ foldShort .plain rest := by
  induction letters with
  | nil => rfl
  | cons letter letters inductionHypothesis =>
    rw [List.cons_append, foldShort, if_neg (noEscape letter List.mem_cons_self),
      inductionHypothesis fun other member => noEscape other (List.mem_cons_of_mem letter member)]
    rfl

theorem foldShort_escape {letter : Char} (noBreak : isBreak letter = false)
    (noSkip : letter ≠ 'z') (rest : List Char) :
    foldShort .plain ('\\' :: letter :: rest) = '\\' :: letter :: foldShort .plain rest := by
  rw [foldShort, if_pos rfl, foldShort, if_neg (by simp [noBreak]), if_neg noSkip]

theorem foldShort_blanks {blanks : List Char} (blank : ∀ letter ∈ blanks, isBlank letter = true)
    (rest : List Char) : foldShort .skipping (blanks ++ rest) = foldShort .skipping rest := by
  induction blanks with
  | nil => rfl
  | cons letter blanks inductionHypothesis =>
    rw [List.cons_append, foldShort_skipping_cons, if_pos (blank letter List.mem_cons_self)]
    exact inductionHypothesis fun other member => blank other (List.mem_cons_of_mem letter member)

/-- What folding makes of a piece: a skip goes, a letter stays, and an escape
stays or becomes one that denotes the same byte.  Only a decimal escape still
depends on what follows. -/
inductive FoldedPiece (after : List Char) : List Char → List Char → List UInt8 → Prop
  | skip {blanks : List Char} :
      (∀ letter ∈ blanks, isBlank letter = true) →
        (∀ next ∈ after.head?, isBlank next = false) →
          FoldedPiece after ('\\' :: 'z' :: blanks) [] []
  | letter {letter : Char} :
      letter ≠ '\\' → isBreak letter = false →
        FoldedPiece after [letter] [letter] (letterBytes letter)
  | escape {mark : Char} {letters folded : List Char} {bytes : List UInt8} :
      Digits.isDecimal mark = false → mark ≠ 'z' →
        (∀ behind, PieceAt behind ('\\' :: folded) bytes) →
          FoldedPiece after ('\\' :: mark :: letters) ('\\' :: folded) bytes
  | decimal {digits : List Char} {byte : Nat} :
      (∀ digit ∈ digits, Digits.isDecimal digit = true) → digits.length ≤ 3 →
        Digits.read? 10 digits = some byte → byte ≤ 255 →
          (digits.length < 3 → ∀ next ∈ after.head?, Digits.isDecimal next = false) →
            FoldedPiece after ('\\' :: digits) ('\\' :: digits) [UInt8.ofNat byte]

private theorem noEscape_of_isNamePart {letters : List Char}
    (areParts : ∀ letter ∈ letters, isNamePart letter = true) :
    ∀ letter ∈ letters, letter ≠ '\\' :=
  fun letter member =>
    (isOrdinary_of_isNamePart (Or.inl rfl : '"' = '"' ∨ '"' = '\'') (areParts letter member)).2.1

private theorem noDigit_of_isBreak {letter : Char} (isLineBreak : isBreak letter = true) :
    Digits.isDecimal letter = false ∧ letter ≠ 'z' := by
  simp only [isBreak, Bool.or_eq_true, decide_eq_true_eq] at isLineBreak
  rcases isLineBreak with rfl | rfl <;> decide

private theorem noDigit_of_namedEscape? {letter : Char} {byte : UInt8}
    (named : namedEscape? letter = some byte) :
    Digits.isDecimal letter = false ∧ letter ≠ 'z' := by
  refine ⟨?_, by rintro rfl; cases named⟩
  cases isDigit : Digits.isDecimal letter with
  | false => rfl
  | true =>
    rw [namedEscape?_of_isDecimal isDigit] at named
    cases named

theorem foldShort_pieceAt {letters rest : List Char} {bytes : List UInt8}
    (piece : PieceAt rest letters bytes) (nonempty : rest ≠ []) :
    ∃ folded, foldShort .plain (letters ++ rest) = folded ++ foldShort .plain rest ∧
      FoldedPiece rest letters folded bytes := by
  rcases List.exists_cons_of_ne_nil nonempty with ⟨next, behind, rfl⟩
  cases piece with
  | @letter letter noEscape noBreak =>
    exact ⟨[letter], foldShort_plain_append (by simpa using noEscape) _, .letter noEscape noBreak⟩
  | @lineBreak letter isLineBreak single =>
    rcases noDigit_of_isBreak isLineBreak with ⟨noDigit, noSkip⟩
    refine ⟨['\\', 'n'], ?_, .escape noDigit noSkip fun after => .named rfl⟩
    have noPair : ¬ (isBreak next && next ≠ letter) = true := by
      have noOther := single next rfl
      simp only [Bool.and_eq_true, decide_eq_true_eq, not_and, Decidable.not_not]
      exact fun isNext => (noOther isNext).symm
    rw [List.cons_append, List.singleton_append, foldShort, if_pos rfl, foldShort,
      if_pos isLineBreak, foldShort_broken_cons, if_neg noPair]
    rfl
  | @twoBreaks first second isFirst isSecond differ =>
    rcases noDigit_of_isBreak isFirst with ⟨noDigit, noSkip⟩
    refine ⟨['\\', 'n'], ?_, .escape noDigit noSkip fun after => .named rfl⟩
    have pairs : (isBreak second && second ≠ first) = true := by simp [isSecond, Ne.symm differ]
    rw [List.cons_append, List.cons_append, List.singleton_append, foldShort, if_pos rfl,
      foldShort, if_pos isFirst, foldShort_broken_cons, if_pos pairs]
    rfl
  | @skip blanks blank stops =>
    refine ⟨[], ?_, .skip blank stops⟩
    rw [List.cons_append, List.cons_append, foldShort, if_pos rfl, foldShort,
      if_neg (by decide), if_pos rfl, foldShort_blanks blank, foldShort_skipping_cons,
      if_neg (by simp [stops next rfl])]
    rfl
  | @named letter byte named =>
    rcases noDigit_of_namedEscape? named with ⟨noDigit, noSkip⟩
    exact ⟨['\\', letter], foldShort_escape (noBreak_of_namedEscape? named) noSkip _,
      .escape noDigit noSkip fun after => .named named⟩
  | @hexadecimal high low byte read =>
    have digits := (Digits.isHexadecimal_of_read? read).2
    have plain := noEscape_of_isNamePart fun digit member =>
      isNamePart_of_isHexadecimal (digits digit member)
    refine ⟨['\\', 'x', high, low], ?_, .escape (by decide) (by decide) fun after => .hexadecimal read⟩
    rw [List.cons_append, List.cons_append, foldShort_escape rfl (by decide),
      foldShort_plain_append plain]
    rfl
  | @code digits code read small =>
    have areDigits := (Digits.isHexadecimal_of_read? read).2
    have plain : ∀ letter ∈ '\x7b' :: (digits ++ ['\x7d']), letter ≠ '\\' := by
      intro letter member
      simp only [List.mem_cons, List.mem_append, List.not_mem_nil, or_false] at member
      rcases member with rfl | member | rfl
      · decide
      · exact noEscape_of_isNamePart (fun digit member =>
          isNamePart_of_isHexadecimal (areDigits digit member)) letter member
      · decide
    refine ⟨'\\' :: 'u' :: '\x7b' :: (digits ++ ['\x7d']), ?_,
      .escape (by decide) (by decide) fun after => .code read small⟩
    rw [List.cons_append, List.cons_append, foldShort_escape rfl (by decide),
      foldShort_plain_append plain]
    rfl
  | @decimal digits byte areDigits short read small stops =>
    refine ⟨'\\' :: digits, ?_, .decimal areDigits short read small stops⟩
    rcases List.exists_cons_of_ne_nil (Digits.isHexadecimal_of_read? read).1 with ⟨digit, more, rfl⟩
    have isDigit := areDigits digit List.mem_cons_self
    have plain := noEscape_of_isNamePart fun digit member =>
      isNamePart_of_isDecimal (areDigits digit member)
    have noBreak := (isOrdinary_of_isNamePart (Or.inl rfl : '"' = '"' ∨ '"' = '\'')
      (isNamePart_of_isDecimal isDigit)).1
    rw [List.cons_append, List.cons_append,
      foldShort_escape noBreak (ne_of_isDecimal isDigit (show Digits.isDecimal 'z' = false by decide)),
      foldShort_plain_append fun letter member => plain letter (List.mem_cons_of_mem digit member)]
    rfl

/-! ## Decimal escapes that run on -/

theorem afterSkips_blanks {blanks : List Char} (blank : ∀ letter ∈ blanks, isBlank letter = true)
    (rest : List Char) : afterSkips true (blanks ++ rest) = afterSkips true rest := by
  induction blanks with
  | nil => rfl
  | cons letter blanks inductionHypothesis =>
    have isBlankLetter := blank letter List.mem_cons_self
    have noEscape : letter ≠ '\\' := by rintro rfl; cases isBlankLetter
    rw [List.cons_append, afterSkips.eq_2 letter _ (by simp [noEscape]), if_pos isBlankLetter]
    exact inductionHypothesis fun other member => blank other (List.mem_cons_of_mem letter member)

theorem afterSkips_visible {letters : List Char}
    (stops : ∀ next ∈ letters.head?, isBlank next = false) :
    afterSkips true letters = afterSkips false letters := by
  cases letters with
  | nil => rfl
  | cons letter rest =>
    by_cases isSkip : ∃ tail, letter = '\\' ∧ rest = 'z' :: tail
    · rcases isSkip with ⟨tail, rfl, rfl⟩
      rfl
    · have noSkip : ∀ tail, letter = '\\' → rest = 'z' :: tail → False :=
        fun tail escape skip => isSkip ⟨tail, escape, skip⟩
      rw [afterSkips.eq_2 letter rest noSkip, if_neg (by simp [stops letter rfl]),
        afterSkips.eq_3 _ _ (fun tail same => noSkip tail (List.cons.inj same).1
          (List.cons.inj same).2) (by simp)]

theorem afterSkips_cons {letter : Char} {rest : List Char}
    (noSkip : ¬ (letter = '\\' ∧ rest.head? = some 'z')) :
    afterSkips false (letter :: rest) = letter :: rest := by
  refine afterSkips.eq_3 _ _ (fun tail same => noSkip ?_) (by simp)
  cases same
  exact ⟨rfl, rfl⟩

/-- A digit comes first in the folded letters exactly if it does once every
`\z` before it is gone. -/
theorem head?_foldShort {quote : Char} {inside : List Char} {bytes : List UInt8}
    (isQuote : quote = '"' ∨ quote = '\'') (pieces : Pieces quote inside bytes) :
    (foldShort .plain inside).head?.any Digits.isDecimal =
      (afterSkips false inside).head?.any Digits.isDecimal := by
  induction pieces with
  | close => rcases isQuote with rfl | rfl <;> rfl
  | piece noQuote piece pieces inductionHypothesis =>
    rcases foldShort_pieceAt piece pieces.ne_nil with ⟨folded, same, isFolded⟩
    rw [same]
    cases isFolded with
    | skip blank stops =>
      rw [List.nil_append, List.cons_append, List.cons_append, afterSkips,
        afterSkips_blanks blank, afterSkips_visible stops]
      exact inductionHypothesis
    | letter noEscape noBreak =>
      rw [List.singleton_append, List.singleton_append, afterSkips_cons (by simp [noEscape])]
      rfl
    | escape noDigit noSkip isEscape =>
      rw [List.cons_append, List.cons_append, List.cons_append,
        afterSkips_cons (by simpa using noSkip)]
      rfl
    | @decimal digits byte areDigits short read small stops =>
      rcases List.exists_cons_of_ne_nil (Digits.isHexadecimal_of_read? read).1 with ⟨digit, _, rfl⟩
      have noSkip := ne_of_isDecimal (areDigits digit List.mem_cons_self)
        (show Digits.isDecimal 'z' = false by decide)
      rw [List.cons_append, List.cons_append, List.cons_append, List.cons_append,
        afterSkips_cons (by simpa using noSkip)]
      rfl

theorem runsOn_of_noDigit {mark : Char} (noDigit : Digits.isDecimal mark = false)
    (rest : List Char) : runsOn (mark :: rest) = false := by
  simp [runsOn, List.take_succ_cons, noDigit]

theorem runsOn_decimal {digits rest : List Char} (someDigit : digits ≠ [])
    (areDigits : ∀ digit ∈ digits, Digits.isDecimal digit = true) (short : digits.length ≤ 3)
    (stops : digits.length < 3 → ∀ next ∈ rest.head?, Digits.isDecimal next = false) :
    runsOn (digits ++ rest) =
      (decide (digits.length < 3) && (afterSkips false rest).head?.any Digits.isDecimal) := by
  have positive := List.length_pos_iff.mpr someDigit
  rw [runsOn, decimalDigits_append areDigits short stops, List.drop_left]
  simp [positive]

theorem someRunsOnFrom_held (quote : Char) (held rest : List Char) :
    someRunsOnFrom quote held.length (held ++ rest) = someRunsOnFrom quote 0 rest := by
  induction held with
  | nil => rfl
  | cons letter held inductionHypothesis =>
    rw [List.cons_append, List.length_cons, someRunsOnFrom, inductionHypothesis]

/-- A piece runs on, or some piece after it does. -/
theorem someRunsOnFrom_append {quote : Char} {letters rest : List Char} {bytes : List UInt8}
    (noQuote : letters.head? ≠ some quote) (piece : PieceAt rest letters bytes) :
    someRunsOnFrom quote 0 (letters ++ rest) =
      ((letters.head? = some '\\' && runsOn (letters.tail ++ rest)) ||
        someRunsOnFrom quote 0 rest) := by
  rcases piece?_of_pieceAt piece with ⟨first, tail, rfl, read⟩
  have differs : first ≠ quote := by simpa using noQuote
  rw [List.cons_append, someRunsOnFrom, if_neg differs, read]
  change (_ || someRunsOnFrom quote tail.length (tail ++ rest)) = _
  rw [someRunsOnFrom_held]
  simp

/-- Where no decimal escape runs on, folding keeps the bytes. -/
theorem pieces_foldShort {quote : Char} {inside : List Char} {bytes : List UInt8}
    (isQuote : quote = '"' ∨ quote = '\'') (pieces : Pieces quote inside bytes)
    (apart : someRunsOnFrom quote 0 inside = false) :
    Pieces quote (foldShort .plain inside) bytes := by
  induction pieces with
  | close => rcases isQuote with rfl | rfl <;> exact .close
  | @piece letters inside bytes more noQuote piece pieces inductionHypothesis =>
    rcases foldShort_pieceAt piece pieces.ne_nil with ⟨folded, same, isFolded⟩
    rw [same]
    rw [someRunsOnFrom_append noQuote piece, Bool.or_eq_false_iff] at apart
    rcases apart with ⟨apartHere, apartRest⟩
    have kept := inductionHypothesis apartRest
    cases isFolded with
    | skip blank stops => exact kept
    | letter noEscape noBreak => exact .piece noQuote (.letter noEscape noBreak) kept
    | escape noDigit noSkip isEscape => exact .piece noQuote (isEscape _) kept
    | @decimal digits byte areDigits short read small stops =>
      refine .piece noQuote (.decimal areDigits short read small fun few => ?_) kept
      have someDigit := (Digits.isHexadecimal_of_read? read).1
      rw [List.tail_cons, runsOn_decimal someDigit areDigits short stops,
        ← head?_foldShort isQuote pieces] at apartHere
      exact any_head?_eq_false_iff.mp (by simpa [few] using apartHere)

/-- The pieces behind a first piece, and their bytes. -/
private theorem rest_of_pieces? {quote : Char} {letters rest taken after : List Char}
    {bytes more : List UInt8} (noQuote : letters.head? ≠ some quote)
    (piece : PieceAt rest letters bytes)
    (read : pieces? quote (letters ++ rest) = some (more, taken, after)) :
    ∃ others inside, more = bytes ++ others ∧ pieces? quote rest = some (others, inside, after) := by
  rw [pieces?_append noQuote piece, Option.map_eq_some_iff] at read
  rcases read with ⟨⟨others, inside, left⟩, readRest, same⟩
  cases same
  exact ⟨others, inside, rfl, readRest⟩

/-- A decimal escape that is read takes every digit up to the third. -/
private theorem decimal_of_pieces? {quote digit : Char} {rest taken after : List Char}
    {more : List UInt8} (noEscape : quote ≠ '\\') (isDigit : Digits.isDecimal digit = true)
    (read : pieces? quote ('\\' :: digit :: rest) = some (more, taken, after)) :
    ∃ digits left byte others inside, digit :: rest = digits ++ left ∧
      (∀ digit ∈ digits, Digits.isDecimal digit = true) ∧
      (digits.length < 3 → ∀ next ∈ left.head?, Digits.isDecimal next = false) ∧
      more = byte :: others ∧ pieces? quote left = some (others, inside, after) := by
  cases escape : decimalEscape? (digit :: rest) with
  | none =>
    rw [pieces?, piecesFrom, if_neg noEscape.symm, piece?, if_pos rfl,
      escape?_of_isDecimal isDigit, escape] at read
    cases read
  | some piece =>
    rcases decimal_of_decimalEscape? escape with
      ⟨digits, left, byte, whole, -, areDigits, short, number, small, stops⟩
    have piece := PieceAt.decimal areDigits short number small stops
    rw [whole, ← List.cons_append] at read
    have noQuote : ('\\' :: digits).head? ≠ some quote := by simpa using noEscape.symm
    rcases rest_of_pieces? noQuote piece read with ⟨others, inside, same, readLeft⟩
    exact ⟨digits, left, _, others, inside, whole, areDigits, stops, same, readLeft⟩

/-- Digits that were taken for an escape are taken again, and those that follow
them now are taken as well. -/
private theorem digits_joined {own rest digits left : List Char} (short : own.length ≤ 3)
    (ownDigits : ∀ digit ∈ own, Digits.isDecimal digit = true)
    (whole : own ++ rest = digits ++ left)
    (stops : digits.length < 3 → ∀ next ∈ left.head?, Digits.isDecimal next = false) :
    ∃ joining, digits = own ++ joining ∧ rest = joining ++ left := by
  rcases List.append_eq_append_iff.mp whole with ⟨joining, same, sameRest⟩ | ⟨cut, same, sameLeft⟩
  · exact ⟨joining, same, sameRest⟩
  · cases cut with
    | nil => exact ⟨[], by rw [same]; simp, by rw [sameLeft]; rfl⟩
    | cons letter cut =>
      rw [same, List.length_append, List.length_cons] at short
      have noDigit := stops (by omega) letter (by rw [sameLeft]; rfl)
      rw [ownDigits letter (by simp [same])] at noDigit
      cases noDigit

/-- An escape whose digits were taken once is taken with them and with those
that join them now, and some do where it has fewer than three and a digit is
next. -/
private theorem joining_of_pieces? {quote : Char} {own rest taken after : List Char}
    {more : List UInt8} (noEscape : quote ≠ '\\') (someDigit : own ≠ [])
    (ownDigits : ∀ digit ∈ own, Digits.isDecimal digit = true) (short : own.length ≤ 3)
    (read : pieces? quote (('\\' :: own) ++ rest) = some (more, taken, after)) :
    ∃ joining left byte others inside, rest = joining ++ left ∧
      (∀ digit ∈ joining, Digits.isDecimal digit = true) ∧
      (own.length < 3 → joining = [] → rest.head?.any Digits.isDecimal = false) ∧
      more = byte :: others ∧ pieces? quote left = some (others, inside, after) := by
  rcases List.exists_cons_of_ne_nil someDigit with ⟨digit, _, sameOwn⟩
  rw [sameOwn] at read
  rcases decimal_of_pieces? noEscape (ownDigits digit (by simp [sameOwn])) read with
    ⟨digits, left, byte, others, inside, whole, areDigits, stops, same, readLeft⟩
  have ownWhole : own ++ rest = digits ++ left := by
    rw [sameOwn]
    exact whole
  rcases digits_joined short ownDigits ownWhole stops with ⟨joining, rfl, sameRest⟩
  refine ⟨joining, left, byte, others, inside, sameRest, ?_, ?_, same, readLeft⟩
  · intro digit member
    exact areDigits digit (List.mem_append_right own member)
  · rintro few rfl
    rw [sameRest, List.nil_append, any_head?_eq_false_iff]
    exact stops (by simpa using few)

private theorem digits_of_noDigit {letter : Char} {letters digits rest : List Char}
    (same : letter :: letters = digits ++ rest) (noDigit : Digits.isDecimal letter = false)
    (areDigits : ∀ digit ∈ digits, Digits.isDecimal digit = true) :
    digits = [] ∧ rest = letter :: letters := by
  cases digits with
  | nil => exact ⟨rfl, same.symm⟩
  | cons digit digits =>
    rcases List.cons.inj same with ⟨rfl, -⟩
    rw [areDigits letter List.mem_cons_self] at noDigit
    cases noDigit

/-- What is left of a folded short literal behind some digits denotes fewer
bytes than the literal, fewer by each digit, and fewer still if a decimal escape
runs on. -/
theorem length_foldShort {quote : Char} {inside : List Char} {bytes : List UInt8}
    (isQuote : quote = '"' ∨ quote = '\'') (pieces : Pieces quote inside bytes)
    {digits rest : List Char} (folded : foldShort .plain inside = digits ++ rest)
    (areDigits : ∀ digit ∈ digits, Digits.isDecimal digit = true)
    {more : List UInt8} {taken after : List Char}
    (read : pieces? quote rest = some (more, taken, after)) :
    digits.length + more.length + (someRunsOnFrom quote 0 inside).toNat ≤ bytes.length := by
  have noDigitQuote : Digits.isDecimal quote = false := by
    rcases isQuote with rfl | rfl <;> decide
  have noEscapeQuote : quote ≠ '\\' := by rcases isQuote with rfl | rfl <;> decide
  induction pieces generalizing digits rest more taken with
  | close =>
    rw [foldShort, if_neg noEscapeQuote] at folded
    rcases digits_of_noDigit folded noDigitQuote areDigits with ⟨rfl, rfl⟩
    rw [pieces?, piecesFrom, if_pos rfl] at read
    cases read
    rw [someRunsOnFrom, if_pos rfl]
    exact Nat.le_refl 0
  | @piece letters inside bytes others noQuote piece pieces inductionHypothesis =>
    rcases foldShort_pieceAt piece pieces.ne_nil with ⟨kept, same, isFolded⟩
    rw [same] at folded
    rw [someRunsOnFrom_append noQuote piece, List.length_append]
    cases isFolded with
    | skip blank stops =>
      have left := inductionHypothesis folded areDigits read
      simpa [runsOn_of_noDigit (show Digits.isDecimal 'z' = false by decide)] using left
    | @letter letter noEscape noBreak =>
      have noRun : (decide ([letter].head? = some '\\') && runsOn ([letter].tail ++ inside)) =
          false := by simp [noEscape]
      rw [noRun, Bool.false_or]
      cases digits with
      | nil =>
        subst folded
        rcases rest_of_pieces? noQuote (.letter noEscape noBreak) read with
          ⟨left, _, rfl, readLeft⟩
        have shorter := inductionHypothesis (List.nil_append _).symm (by simp) readLeft
        rw [List.length_append]
        simp only [List.length_nil] at shorter ⊢
        omega
      | cons digit digits =>
        have shorter := inductionHypothesis (List.cons.inj folded).2
          (fun other member => areDigits other (List.mem_cons_of_mem digit member)) read
        have someByte : 0 < (letterBytes letter).length := by
          rw [letterBytes, String.length_utf8EncodeChar]
          exact letter.utf8Size_pos
        rw [List.length_cons]
        omega
    | @escape mark letters tail bytes noDigit noSkip isEscape =>
      rcases digits_of_noDigit folded (by decide) areDigits with ⟨rfl, rfl⟩
      have noQuoteTail : ('\\' :: tail).head? ≠ some quote := noQuote
      rcases rest_of_pieces? noQuoteTail (isEscape _) read with ⟨left, _, rfl, readLeft⟩
      have shorter := inductionHypothesis (List.nil_append _).symm (by simp) readLeft
      rw [List.tail_cons, List.cons_append, runsOn_of_noDigit noDigit, Bool.and_false,
        Bool.false_or, List.length_append]
      simp only [List.length_nil] at shorter ⊢
      omega
    | @decimal own byte ownDigits short number small stops =>
      rcases digits_of_noDigit folded (by decide) areDigits with ⟨rfl, rfl⟩
      have someDigit := (Digits.isHexadecimal_of_read? number).1
      rcases joining_of_pieces? noEscapeQuote someDigit ownDigits short read with
        ⟨joining, left, _, leftBytes, _, sameRest, joiningDigits, apart, rfl, readLeft⟩
      have shorter := inductionHypothesis sameRest joiningDigits readLeft
      rw [List.tail_cons, runsOn_decimal someDigit ownDigits short stops,
        ← head?_foldShort isQuote pieces]
      simp only [List.length_nil, List.length_cons]
      cases joining with
      | nil =>
        have noRun : (decide (own.length < 3) &&
            (foldShort .plain inside).head?.any Digits.isDecimal) = false := by
          by_cases few : own.length < 3
          · rw [apart few rfl, Bool.and_false]
          · rw [decide_eq_false few, Bool.false_and]
        rw [noRun, Bool.and_false, Bool.false_or]
        simp only [List.length_nil] at shorter
        omega
      | cons joined joining =>
        have atMost (runs : Bool) : (runs || someRunsOnFrom quote 0 inside).toNat ≤ 1 :=
          Bool.toNat_le _
        refine Nat.le_trans (Nat.add_le_add_left (atMost _) _) ?_
        rw [List.length_cons] at shorter
        omega

/-- Folding keeps what a short literal denotes exactly if no decimal escape in
it runs on. -/
theorem pieces_foldShort_iff {quote : Char} {inside : List Char} {bytes : List UInt8}
    (isQuote : quote = '"' ∨ quote = '\'') (pieces : Pieces quote inside bytes) :
    Pieces quote (foldShort .plain inside) bytes ↔ someRunsOnFrom quote 0 inside = false := by
  constructor
  · intro kept
    have read : pieces? quote (foldShort .plain inside) =
        some (bytes, foldShort .plain inside, []) :=
      pieces?_eq_some_iff.mpr ⟨List.append_nil _, kept⟩
    have shorter := length_foldShort isQuote pieces (List.nil_append _).symm (by simp) read
    cases runs : someRunsOnFrom quote 0 inside with
    | false => rfl
    | true =>
      rw [runs, Bool.toNat_true] at shorter
      omega
  · exact pieces_foldShort isQuote pieces

/-! ## Long literals -/

theorem withoutFirstBreak_eq (letters : List Char) :
    withoutFirstBreak letters = letters.drop (breakSize letters) := by
  unfold withoutFirstBreak
  split
  · rfl
  · rfl
  · rename_i rest noReturn
    cases rest with
    | nil => rfl
    | cons second rest =>
      have noPair : second ≠ '\r' := fun same => noReturn rest (by rw [same])
      by_cases feed : second = '\n' <;> simp [breakSize, isBreak, noPair, feed]
  · rename_i rest noFeed
    cases rest with
    | nil => rfl
    | cons second rest =>
      have noPair : second ≠ '\n' := fun same => noFeed rest (by rw [same])
      by_cases carriageReturn : second = '\r' <;> simp [breakSize, isBreak, noPair, carriageReturn]
  · rename_i noFeed noReturn
    cases letters with
    | nil => rfl
    | cons letter rest =>
      have noBreak : isBreak letter = false := by
        simp only [isBreak, Bool.or_eq_false_iff, decide_eq_false_iff_not]
        exact ⟨fun same => noFeed _ (by rw [same]), fun same => noReturn _ (by rw [same])⟩
      cases rest <;> simp [breakSize, noBreak]

theorem longInside_break {letter : Char} (isLineBreak : isBreak letter = true) (rest : List Char) :
    longInside none (letter :: rest) = '\\' :: 'n' :: longInside (some letter) rest := by
  simp [longInside, isLineBreak]

/-- After a break, another break of the other kind is passed over, and anything
else stands as it would stand anywhere. -/
theorem longInside_broken (first second : Char) (rest : List Char) :
    longInside (some first) (second :: rest) =
      if isBreak second && first ≠ second then longInside none rest
      else longInside none (second :: rest) := by
  by_cases isLineBreak : isBreak second = true
  · by_cases same : first = second
    · simp [longInside, isLineBreak, same]
    · simp [longInside, isLineBreak, same]
  · simp [longInside, isLineBreak]

private theorem pieces_named {mark : Char} {byte : UInt8} {rest : List Char} {bytes : List UInt8}
    (named : namedEscape? mark = some byte) (pieces : Pieces '"' rest bytes) :
    Pieces '"' ('\\' :: mark :: rest) (byte :: bytes) := by
  change Pieces '"' (['\\', mark] ++ rest) ([byte] ++ bytes)
  exact .piece (by simp) (.named named) pieces

private theorem pieces_longLetter {letter : Char} (noBreak : isBreak letter = false)
    {rest : List Char} {bytes : List UInt8}
    (pieces : Pieces '"' (longInside none rest ++ ['"']) bytes) :
    Pieces '"' (longInside none (letter :: rest) ++ ['"']) (letterBytes letter ++ bytes) := by
  by_cases escape : letter = '\\'
  · subst escape
    exact pieces_named rfl pieces
  by_cases closes : letter = '"'
  · subst closes
    exact pieces_named rfl pieces
  · have same : longInside none (letter :: rest) = [letter] ++ longInside none rest := by
      simp [longInside, noBreak, escape, closes]
    rw [same, List.append_assoc]
    exact .piece (by simpa using closes) (.letter escape noBreak) pieces

/-- The inside of a long literal denotes the same bytes between double quotes. -/
theorem pieces_longInside (letters : List Char) :
    Pieces '"' (longInside none letters ++ ['"']) (longBytes letters) := by
  induction letters using longBytes.induct with
  | case1 => exact .close
  | case2 letter isLineBreak =>
    rw [longInside_break isLineBreak, longBytes, if_pos isLineBreak]
    exact pieces_named rfl .close
  | case3 letter noBreak =>
    have pieces := @pieces_longLetter letter (by simpa using noBreak) [] [] .close
    rw [List.append_nil] at pieces
    rw [longBytes, if_neg noBreak]
    exact pieces
  | case4 first second rest isLineBreak pairs inductionHypothesis =>
    rw [longInside_break isLineBreak, longInside_broken, if_pos pairs, longBytes,
      if_pos isLineBreak, if_pos pairs]
    exact pieces_named rfl inductionHypothesis
  | case5 first second rest isLineBreak single inductionHypothesis =>
    rw [longInside_break isLineBreak, longInside_broken, if_neg single, longBytes,
      if_pos isLineBreak, if_neg single]
    exact pieces_named rfl inductionHypothesis
  | case6 first second rest noBreak inductionHypothesis =>
    rw [longBytes, if_neg noBreak]
    exact pieces_longLetter (by simpa using noBreak) inductionHypothesis

theorem longToShort_longLetters (level : Nat) (inside : List Char) :
    longToShort (longLetters level inside) =
      '"' :: (longInside none
        (withoutFirstBreak (inside.take (inside.length - (level + 2)))) ++ ['"']) := by
  have equals : ((longLetters level inside).tail.takeWhile (· = '=')).length = level := by
    rw [longLetters, List.tail_cons, (takeWhile_append_iff _ _ _).mpr ⟨by simp, by simp⟩,
      List.length_replicate]
  have size : (longLetters level inside).length = level + 2 + inside.length := by
    simp only [longLetters, List.length_cons, List.length_append, List.length_replicate]
    omega
  have body : (longLetters level inside).drop (level + 2) = inside := by
    simp [longLetters, List.drop_append]
  rw [longToShort, equals, size, body]
  rw [show level + 2 + inside.length - 2 * (level + 2) = inside.length - (level + 2) by omega]

/-- A long literal becomes a short one that denotes the same bytes. -/
theorem bytes?_longToShort {level : Nat} {inside : List Char}
    (closed : untilClosing? level inside = some (inside, [])) :
    bytes? (longToShort (longLetters level inside)) = bytes? (longLetters level inside) := by
  rw [longToShort_longLetters, bytes?_long closed, bytes?_short_iff (Or.inl rfl),
    withoutFirstBreak_eq]
  exact pieces_longInside _

/-! ## Any literal -/

/-- Letters that denote bytes are those of a string. -/
theorem stringLetters_of_bytes? {letters : List Char} {bytes : List UInt8}
    (denotes : bytes? letters = some bytes) : StringLetters letters := by
  unfold bytes? at denotes
  split at denotes
  · rename_i level body opened
    split at denotes
    · rename_i inside closed
      have whole := longLetters_of_longOpening? opened
      have joined := append_of_untilClosing? closed
      rw [List.append_nil] at joined
      rw [← whole, ← joined]
      rw [← joined] at closed
      exact .long closed
    · cases denotes
  · split at denotes
    · rename_i quote rest
      split at denotes
      · rename_i isQuote
        simp only [Bool.or_eq_true, decide_eq_true_eq] at isQuote
        split at denotes
        · rename_i found whole read
          rcases pieces?_eq_some_iff.mp read with ⟨same, pieces⟩
          rw [List.append_nil] at same
          rw [← same]
          exact .short isQuote (isStringRest_of_pieces isQuote pieces)
        · cases denotes
      · cases denotes
    · cases denotes

end Literal

/-- A literal on one line denotes the bytes that it denoted before, exactly
unless it spanned lines and some decimal escape in it now runs on. -/
theorem bytes?_singleLineLetters_iff {token : Token} {bytes : List UInt8}
    (kind : token.kind = .string) (denotes : Literal.bytes? token.letters = some bytes) :
    Literal.bytes? (singleLineLetters token) = some bytes ↔
      ¬ (token.letters.any isBreak = true ∧ Literal.someRunsOn token.letters = true) := by
  rw [singleLineLetters]
  cases spans : token.letters.any isBreak with
  | false => simp [denotes]
  | true =>
    rw [if_pos (by simp [kind])]
    have isString := Literal.stringLetters_of_bytes? denotes
    generalize written : token.letters = letters at isString denotes
    cases isString with
    | @long level inside closed =>
      change Literal.bytes? (longToShort (longLetters level inside)) = some bytes ↔ _
      have noRun : Literal.someRunsOn (longLetters level inside) = false := rfl
      rw [Literal.bytes?_longToShort closed, denotes, noRun]
      simp
    | @short quote inside isQuote isRest =>
      have noBracket : quote ≠ '[' := by rcases isQuote with rfl | rfl <;> decide
      have noEscape : quote ≠ '\\' := by rcases isQuote with rfl | rfl <;> decide
      have pieces := (Literal.bytes?_short_iff isQuote).mp denotes
      have runs : Literal.someRunsOn (quote :: inside) =
          Literal.someRunsOnFrom quote 0 inside := by
        rw [Literal.someRunsOn]
        rcases isQuote with rfl | rfl <;> rfl
      split
      · rename_i rest same
        exact absurd (List.cons.inj same).1 noBracket
      · rw [foldShort, if_neg noEscape, Literal.bytes?_short_iff isQuote,
          Literal.pieces_foldShort_iff isQuote pieces, runs]
        simp

theorem bytes?_singleLineLetters_break :
    Literal.bytes? "'\\65\\\nb'".toList = some [65, 10, 98] ∧
      (Literal.bytes? (singleLineLetters { kind := .string, letters := "'\\65\\\nb'".toList }) =
          some [65, 10, 98] ↔
        ¬ ("'\\65\\\nb'".toList.any isBreak = true ∧
          Literal.someRunsOn "'\\65\\\nb'".toList = true)) := by
  have denotes : Literal.bytes? "'\\65\\\nb'".toList = some [65, 10, 98] := by decide +kernel
  exact ⟨denotes, @bytes?_singleLineLetters_iff
    { kind := .string, letters := "'\\65\\\nb'".toList } _ rfl denotes⟩

/-- The digit behind the skip joins the escape before it. -/
theorem bytes?_singleLineLetters_skip :
    tokens "x='\\1\\z\n2'".toList = .ok [.ofName ['x'], .ofSymbol "=",
        { kind := .string, letters := "'\\1\\z\n2'".toList }] ∧
      Literal.bytes? "'\\1\\z\n2'".toList = some [1, 50] ∧
      Literal.bytes? (singleLineLetters { kind := .string, letters := "'\\1\\z\n2'".toList }) =
        some [12] := by
  refine ⟨?_, by decide +kernel, by decide +kernel⟩
  exact toOption_eq_some_iff.mp (by decide +kernel)

end Lua

end LogPipeline
