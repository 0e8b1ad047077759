import LogPipeline.Number.Digits

namespace LogPipeline

/-!
# Network addresses as property text

An address of four bytes is written as four decimal numbers.  One of sixteen
bytes is written as eight hexadecimal groups without leading zeros, where the
longest run of at least two zero groups, the first of equally long ones, is
left out between two colons.  An address that embeds one of four bytes shows
that one at its end.
-/

/-- A network address by its bytes or by its groups of sixteen bits. -/
inductive Address where
  | four (bytes : List Nat)
  | eight (groups : List Nat)

namespace Address

/-- The groups of sixteen bits that bytes form in pairs. -/
def groupsOf : List Nat → List Nat
  | high :: low :: rest => (256 * high + low) :: groupsOf rest
  | _ => []

/-- An address from four or sixteen bytes. -/
def ofBytes? (bytes : List Nat) : Option Address :=
  if bytes.length = 4 then some (.four bytes)
  else if bytes.length = 16 then some (.eight (groupsOf bytes))
  else none

def joined (separator : Char) : List (List Char) → List Char
  | [] => []
  | [part] => part
  | part :: next :: parts => part ++ separator :: joined separator (next :: parts)

def dotted (bytes : List Nat) : List Char :=
  joined '.' (bytes.map Digits.decimal)

def colons (groups : List Nat) : List Char :=
  joined ':' (groups.map Digits.hexadecimal)

def leadingZeros (groups : List Nat) : Nat :=
  (groups.takeWhile (· = 0)).length

/-- The start and the length of the longest run of zero groups, the first of
equally long ones. -/
def longestZeroRun (groups : List Nat) : Nat × Nat :=
  (List.range groups.length).foldl
    (fun best start =>
      let length := leadingZeros (groups.drop start)
      if best.2 < length then (start, length) else best)
    (0, 0)

/-- Eight groups with the longest run of at least two zeros left out. -/
def compressed (groups : List Nat) : List Char :=
  let (start, length) := longestZeroRun groups
  if length < 2 then colons groups
  else colons (groups.take start) ++ ':' :: ':' :: colons (groups.drop (start + length))

/-- The letters of an address. -/
def letters : Address → List Char
  | .four bytes => dotted bytes
  | .eight groups =>
    match groups with
    | [0, 0, 0, 0, 0, 0xffff, high, low] =>
      [':', ':', 'f', 'f', 'f', 'f', ':'] ++
        dotted [high / 256, high % 256, low / 256, low % 256]
    | _ => compressed groups

def text (address : Address) : String :=
  String.ofList address.letters

end Address

end LogPipeline
