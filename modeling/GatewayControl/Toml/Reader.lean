import GatewayControl.Toml.Document

/-!
# `GatewayControl.Toml.Reader` -- reading TOML text

A reader takes a text to what it read and the text that follows, or to nothing. `read?` reads a
whole document: lines that hold a pair, a header, a comment or nothing. Arrays and inline tables
nest at most `maxDepth` deep, and a dotted key has at most as many parts.
-/

namespace GatewayControl.Toml

/-- How deep arrays and inline tables nest, and how many parts a key has, at most. -/
def maxDepth : Nat := 79

/-! ## Blanks, line ends and comments -/

/-- A space or a tab. -/
def isSpace (c : Char) : Bool := c == ' ' || c == '\t'

/-- The text without the spaces and tabs at its start. -/
def skipSpaces (cs : List Char) : List Char := cs.dropWhile isSpace

/-- A character that may stand in a comment or in quotes. -/
def isPlain (c : Char) : Bool := c == '\t' || (0x20 ≤ c.toNat && c.toNat ≠ 0x7f)

/-- The text after a line end. -/
def afterNewline : List Char → Option (List Char)
  | '\n' :: rest => some rest
  | '\r' :: '\n' :: rest => some rest
  | _ => none

/-- The text without a comment at its start. -/
def skipComment : List Char → List Char
  | '#' :: rest => rest.dropWhile isPlain
  | cs => cs

/-- The text after the rest of a line that holds nothing more. -/
def afterLine (cs : List Char) : Option (List Char) :=
  match skipComment (skipSpaces cs) with
  | [] => some []
  | rest => afterNewline rest

/-- The text without the blanks, line ends and whole-line comments at its start; `inComment` tells
that a comment has begun. -/
def skipLines (inComment : Bool) : List Char → Option (List Char)
  | [] => if inComment then none else some []
  | '\n' :: rest => skipLines false rest
  | '\r' :: '\n' :: rest => skipLines false rest
  | c :: rest =>
    if inComment then if isPlain c then skipLines true rest else none
    else if isSpace c then skipLines false rest
    else if c = '#' then skipLines true rest
    else some (c :: rest)

/-! ## Strings -/

/-- The number of a digit of base sixteen, in either case. -/
def hexValue? (c : Char) : Option Nat :=
  if c.isDigit then some (c.toNat - 48)
  else if 'a' ≤ c ∧ c ≤ 'f' then some (c.toNat - 87)
  else if 'A' ≤ c ∧ c ≤ 'F' then some (c.toNat - 55)
  else none

/-- The character whose code point digits of base sixteen spell. -/
def scalar? (digits : List Char) : Option Char := do
  let values ← digits.mapM hexValue?
  let n := values.foldl (fun n d => n * 16 + d) 0
  if n < 0xD800 ∨ (0xE000 ≤ n ∧ n < 0x110000) then some (Char.ofNat n) else none

/-- The character that a backslash and a letter stand for. -/
def shortEscape? (c : Char) : Option Char :=
  match c with
  | 'b' => some '\x08'
  | 't' => some '\t'
  | 'n' => some '\n'
  | 'f' => some '\x0c'
  | 'r' => some '\r'
  | '"' => some '"'
  | '\\' => some '\\'
  | _ => none

/-- A string in double quotes, after the opening one. -/
def readBasic : List Char → Option (List Char × List Char)
  | [] => none
  | '"' :: rest => some ([], rest)
  | '\\' :: 'u' :: a :: b :: c :: d :: rest => do
    let x ← scalar? [a, b, c, d]
    let (text, rest) ← readBasic rest
    return (x :: text, rest)
  | '\\' :: 'U' :: a :: b :: c :: d :: e :: f :: g :: h :: rest => do
    let x ← scalar? [a, b, c, d, e, f, g, h]
    let (text, rest) ← readBasic rest
    return (x :: text, rest)
  | '\\' :: c :: rest => do
    let x ← shortEscape? c
    let (text, rest) ← readBasic rest
    return (x :: text, rest)
  | c :: rest =>
    if isPlain c && c != '\\' then do
      let (text, rest) ← readBasic rest
      return (c :: text, rest)
    else none

/-- A string in single quotes, after the opening one. -/
def readLiteral : List Char → Option (List Char × List Char)
  | [] => none
  | '\'' :: rest => some ([], rest)
  | c :: rest =>
    if isPlain c then do
      let (text, rest) ← readLiteral rest
      return (c :: text, rest)
    else none

/-- The quotes that stand before the closing three, at most two, and what follows. -/
def closingQuotes (quote : Char) : List Char → List Char × List Char
  | a :: b :: rest =>
    if a = quote then if b = quote then ([a, b], rest) else ([a], b :: rest) else ([], a :: b :: rest)
  | a :: rest => if a = quote then ([a], rest) else ([], a :: rest)
  | [] => ([], [])

/-- A backslash before this text ends its line. -/
def endsLine (cs : List Char) : Bool := (afterNewline (skipSpaces cs)).isSome

/-- A string over several lines, after the opening quotes; `joining` tells that blanks and line
ends are skipped because a backslash ended a line. -/
def readLines (joining : Bool) : List Char → Option (List Char × List Char)
  | [] => none
  | '"' :: '"' :: '"' :: rest => some (closingQuotes '"' rest)
  | '\r' :: '\n' :: rest =>
    if joining then readLines true rest
    else do
      let (text, rest) ← readLines false rest
      return ('\n' :: text, rest)
  | '\n' :: rest =>
    if joining then readLines true rest
    else do
      let (text, rest) ← readLines false rest
      return ('\n' :: text, rest)
  | '\\' :: 'u' :: a :: b :: c :: d :: rest => do
    let x ← scalar? [a, b, c, d]
    let (text, rest) ← readLines false rest
    return (x :: text, rest)
  | '\\' :: 'U' :: a :: b :: c :: d :: e :: f :: g :: h :: rest => do
    let x ← scalar? [a, b, c, d, e, f, g, h]
    let (text, rest) ← readLines false rest
    return (x :: text, rest)
  | '\\' :: c :: rest =>
    if endsLine (c :: rest) then readLines true (c :: rest)
    else do
      let x ← shortEscape? c
      let (text, rest) ← readLines false rest
      return (x :: text, rest)
  | c :: rest =>
    if joining && isSpace c then readLines true rest
    else if isPlain c && c != '\\' then do
      let (text, rest) ← readLines false rest
      return (c :: text, rest)
    else none

/-- A literal string over several lines, after the opening quotes. -/
def readLiteralLines : List Char → Option (List Char × List Char)
  | [] => none
  | '\'' :: '\'' :: '\'' :: rest => some (closingQuotes '\'' rest)
  | '\r' :: '\n' :: rest => do
    let (text, rest) ← readLiteralLines rest
    return ('\n' :: text, rest)
  | c :: rest =>
    if c = '\n' || isPlain c then do
      let (text, rest) ← readLiteralLines rest
      return (c :: text, rest)
    else none

/-- The text without a line end at its start. -/
def dropNewline (cs : List Char) : List Char := (afterNewline cs).getD cs

/-- A string of any kind. -/
def readString : List Char → Option (String × List Char)
  | '"' :: '"' :: '"' :: rest => (readLines false (dropNewline rest)).map fun (t, r) => (String.ofList t, r)
  | '\'' :: '\'' :: '\'' :: rest =>
    (readLiteralLines (dropNewline rest)).map fun (t, r) => (String.ofList t, r)
  | '"' :: rest => (readBasic rest).map fun (t, r) => (String.ofList t, r)
  | '\'' :: rest => (readLiteral rest).map fun (t, r) => (String.ofList t, r)
  | _ => none

/-! ## Dates and times -/

/-- Exactly `n` digits, and the number they spell. -/
def readDigits (n : Nat) (cs : List Char) : Option (Nat × List Char) :=
  let digits := cs.take n
  if digits.length = n ∧ digits.all Char.isDigit then
    some (digits.foldl (fun v c => v * 10 + (c.toNat - 48)) 0, cs.drop n)
  else none

/-- The text after a character. -/
def after (c : Char) : List Char → Option (List Char)
  | d :: rest => if d = c then some rest else none
  | [] => none

/-- A number with at least `width` digits. -/
def padded (width n : Nat) : String :=
  let digits := Nat.toDigits 10 n
  String.ofList (List.replicate (width - digits.length) '0' ++ digits)

/-- The days of a month. -/
def daysOf (year month : Nat) : Nat :=
  if month = 2 then
    if year % 4 = 0 ∧ (year % 100 ≠ 0 ∨ year % 400 = 0) then 29 else 28
  else if month = 4 ∨ month = 6 ∨ month = 9 ∨ month = 11 then 30
  else 31

/-- A date, in canonical spelling. -/
def readDate (cs : List Char) : Option (String × List Char) := do
  let (year, cs) ← readDigits 4 cs
  let (month, cs) ← readDigits 2 (← after '-' cs)
  let (day, cs) ← readDigits 2 (← after '-' cs)
  if 1 ≤ month ∧ month ≤ 12 ∧ 1 ≤ day ∧ day ≤ daysOf year month then
    some (padded 4 year ++ "-" ++ padded 2 month ++ "-" ++ padded 2 day, cs)
  else none

/-- The fraction of a second: nine places at most, without zeros at the end. -/
def fractionText (digits : List Char) : String :=
  let kept := ((digits.take 9).reverse.dropWhile (· == '0')).reverse
  if kept.isEmpty then "" else "." ++ String.ofList kept

/-- A time of day, in canonical spelling. -/
def readTime (cs : List Char) : Option (String × List Char) := do
  let (hour, cs) ← readDigits 2 cs
  let (minute, cs) ← readDigits 2 (← after ':' cs)
  let (second, cs) ← readDigits 2 (← after ':' cs)
  if 23 < hour ∨ 59 < minute ∨ 60 < second then none
  else
    let text := padded 2 hour ++ ":" ++ padded 2 minute ++ ":" ++ padded 2 second
    match cs with
    | '.' :: rest =>
      let digits := rest.takeWhile Char.isDigit
      if digits.isEmpty then none else some (text ++ fractionText digits, rest.dropWhile Char.isDigit)
    | cs => some (text, cs)

/-- The offset from universal time, empty if there is none. -/
def readOffset (cs : List Char) : Option (String × List Char) :=
  match cs with
  | 'Z' :: rest => some ("Z", rest)
  | 'z' :: rest => some ("Z", rest)
  | sign :: rest =>
    if sign = '+' ∨ sign = '-' then do
      let (hour, rest) ← readDigits 2 rest
      let (minute, rest) ← readDigits 2 (← after ':' rest)
      if 23 < hour ∨ 59 < minute then none
      else
        let sign := if sign = '-' ∧ 0 < hour * 60 + minute then "-" else "+"
        some (sign ++ padded 2 hour ++ ":" ++ padded 2 minute, rest)
    else some ("", sign :: rest)
  | [] => some ("", [])

/-- A date with or without a time, or a time alone. -/
def readDateTime (cs : List Char) : Option (String × List Char) :=
  match readDate cs with
  | some (date, rest) =>
    let clock := match rest with
      | mark :: rest => if mark = 'T' ∨ mark = 't' ∨ mark = ' ' then readTime rest else none
      | [] => none
    match clock with
    -- what follows is no time, so the mark is not part of the date either
    | none => some (date, rest)
    | some (time, rest) => do
      let (offset, rest) ← readOffset rest
      return (date ++ "T" ++ time ++ offset, rest)
  | none => readTime cs

/-! ## Numbers -/

/-- Digits with single underscores between them, and what follows; the underscores are dropped. -/
def digitRun (isDigit : Char → Bool) : List Char → List Char × List Char
  | [] => ([], [])
  | [c] => if isDigit c then ([c], []) else ([], [c])
  | c :: d :: rest =>
    if isDigit c then let (digits, rest) := digitRun isDigit (d :: rest); (c :: digits, rest)
    else if c = '_' && isDigit d then
      let (digits, rest) := digitRun isDigit rest
      (d :: digits, rest)
    else ([], c :: d :: rest)

/-- At least one digit. -/
def readRun (isDigit : Char → Bool) : List Char → Option (List Char × List Char)
  | c :: rest => if isDigit c then some (digitRun isDigit (c :: rest)) else none
  | [] => none

/-- An optional sign; `true` stands for minus. -/
def readSign : List Char → Option Bool × List Char
  | '+' :: rest => (some false, rest)
  | '-' :: rest => (some true, rest)
  | cs => (none, cs)

/-- The digits of a decimal integer: a zero alone, or digits that do not start with one. -/
def readWhole : List Char → Option (List Char × List Char)
  | '0' :: rest => some (['0'], rest)
  | cs => readRun Char.isDigit cs

/-- The digits of an exponent after its letter, if there is one. -/
def readExponent : List Char → Option (Option (Bool × List Char) × List Char)
  | e :: rest =>
    if e = 'e' ∨ e = 'E' then do
      let (sign, rest) := readSign rest
      let (digits, rest) ← readRun Char.isDigit rest
      return (some (sign == some true, digits), rest)
    else some (none, e :: rest)
  | [] => some (none, [])

/-- The number of a list of digits of a base. -/
def ofDigits (base : Nat) (digits : List Char) : Nat :=
  digits.foldl (fun n c => n * base + (hexValue? c).getD 0) 0

/-- The decimal number with these digits, the point standing before the last `places` of them,
rounds beyond the double-precision range. -/
def overflows (digits : List Char) (places : Nat) (exponent : Int) : Bool :=
  let significant := digits.dropWhile (· == '0')
  -- far from the limit the place of the first digit decides
  let top : Int := significant.length - places + exponent
  if significant.isEmpty || top < 300 then false
  else if 320 < top then true
  else
    let n := ofDigits 10 significant
    let e := exponent - places
    let limit := Nat.pow 2 1024 - Nat.pow 2 970
    if 0 ≤ e then decide (limit ≤ n * Nat.pow 10 e.toNat)
    else decide (limit * Nat.pow 10 (-e).toNat ≤ n)

/-- A number with a point or an exponent. -/
def readFloat (cs : List Char) : Option (Value × List Char) := do
  let (sign, rest) := readSign cs
  let (whole, rest) ← readWhole rest
  let (fraction, rest) ← match rest with
    | '.' :: rest => readRun Char.isDigit rest
    | rest => some ([], rest)
  let (exponent, rest) ← readExponent rest
  -- without a point and an exponent it is an integer
  if fraction.isEmpty ∧ exponent.isNone then none
  else
    let power : Int := match exponent with
      | none => 0
      | some (negative, digits) => if negative then -(ofDigits 10 digits : Int) else ofDigits 10 digits
    if sign ≠ some true ∧ overflows (whole ++ fraction) fraction.length power then none
    else some (.float (String.ofList (cs.take (cs.length - rest.length))), rest)

/-- One of the numbers that are words. -/
def readSpecial (cs : List Char) : Option (Value × List Char) :=
  match (readSign cs).2 with
  | 'i' :: 'n' :: 'f' :: rest => some (.float (String.ofList (cs.take (cs.length - rest.length))), rest)
  | 'n' :: 'a' :: 'n' :: rest => some (.float (String.ofList (cs.take (cs.length - rest.length))), rest)
  | _ => none

/-- The integer fits 64 bits. -/
def integer? (i : Int) : Option Value :=
  if -0x8000000000000000 ≤ i ∧ i < 0x8000000000000000 then some (.integer i) else none

/-- An integer in base ten, or without a sign in base sixteen, eight or two. -/
def readInteger (cs : List Char) : Option (Value × List Char) :=
  let inBase := fun (base : Nat) (isDigit : Char → Bool) (rest : List Char) => do
    let (digits, rest) ← readRun isDigit rest
    return (← integer? (ofDigits base digits), rest)
  match cs with
  | '0' :: 'x' :: rest => inBase 16 (fun c => (hexValue? c).isSome) rest
  | '0' :: 'o' :: rest => inBase 8 (fun c => '0' ≤ c && c ≤ '7') rest
  | '0' :: 'b' :: rest => inBase 2 (fun c => c == '0' || c == '1') rest
  | cs => do
    let (sign, rest) := readSign cs
    let (digits, rest) ← readWhole rest
    let n : Int := ofDigits 10 digits
    return (← integer? (if sign = some true then -n else n), rest)

/-- A date, a time or a number. -/
def readScalar (cs : List Char) : Option (Value × List Char) :=
  match readDateTime cs with
  | some (text, rest) => some (.dateTime text, rest)
  | none => (readFloat cs).or ((readSpecial cs).or (readInteger cs))

/-! ## Keys -/

/-- A character of a key without quotes. -/
def isBare (c : Char) : Bool := c.isAlphanum || c == '_' || c == '-'

/-- One part of a key. -/
def readPart : List Char → Option (String × List Char)
  | '"' :: rest => (readBasic rest).map fun (t, r) => (String.ofList t, r)
  | '\'' :: rest => (readLiteral rest).map fun (t, r) => (String.ofList t, r)
  | cs =>
    let part := cs.takeWhile isBare
    if part.isEmpty then none else some (String.ofList part, cs.dropWhile isBare)

/-- The parts of a key, with blanks around each; `fuel` bounds their number. -/
def readParts : Nat → List Char → Option (List String × List Char)
  | 0, _ => none
  | fuel + 1, cs => do
    let (part, rest) ← readPart (skipSpaces cs)
    match skipSpaces rest with
    | '.' :: rest =>
      let (parts, rest) ← readParts fuel rest
      return (part :: parts, rest)
    | rest => return ([part], rest)

/-- A key: all parts but the last, and the last. -/
def readKey (cs : List Char) : Option (List String × String × List Char) := do
  let (parts, rest) ← readParts maxDepth cs
  let last ← parts.getLast?
  return (parts.dropLast, last, rest)

/-! ## Values -/

/-- The items of an array up to its closing bracket; `fuel` bounds their number. -/
def readItems (item : List Char → Option (Value × List Char)) :
    Nat → List Char → Option (List Value × List Char)
  | 0, _ => none
  | fuel + 1, cs => do
    match ← skipLines false cs with
    | ']' :: rest => return ([], rest)
    | cs =>
      let (v, rest) ← item cs
      match ← skipLines false rest with
      | ',' :: rest =>
        let (vs, rest) ← readItems item fuel rest
        return (v :: vs, rest)
      | ']' :: rest => return ([v], rest)
      | _ => none

/-- A pair, and the blanks after it. -/
def readPair (value : List Char → Option (Value × List Char)) (cs : List Char) :
    Option (Pair × List Char) := do
  let (path, key, rest) ← readKey cs
  let (v, rest) ← value (skipSpaces (← after '=' rest))
  return (⟨path, key, v⟩, rest)

/-- The pairs of an inline table up to its closing brace; `fuel` bounds their number. -/
def readPairs (value : List Char → Option (Value × List Char)) :
    Nat → List Char → Option (List Pair × List Char)
  | 0, _ => none
  | fuel + 1, cs => do
    let (p, rest) ← readPair value cs
    match skipSpaces rest with
    | ',' :: rest =>
      let (ps, rest) ← readPairs value fuel rest
      return (p :: ps, rest)
    | '\x7d' :: rest => return ([p], rest)
    | _ => none

/-- A value with at most `depth` arrays and inline tables inside each other. -/
def readValue : Nat → List Char → Option (Value × List Char)
  | _, 't' :: 'r' :: 'u' :: 'e' :: rest => some (.boolean true, rest)
  | _, 'f' :: 'a' :: 'l' :: 's' :: 'e' :: rest => some (.boolean false, rest)
  | 0, '[' :: _ => none
  | depth + 1, '[' :: rest =>
    (readItems (readValue depth) (rest.length + 1) rest).map fun (items, rest) => (.array items, rest)
  | 0, '\x7b' :: _ => none
  | depth + 1, '\x7b' :: rest =>
    match skipSpaces rest with
    | '\x7d' :: rest => some (.table [], rest)
    | rest => do
      let (pairs, rest) ← readPairs (readValue depth) (rest.length + 1) rest
      return (.table (valuesOf (← Nodes.addPairs [] pairs)), rest)
  | _, cs =>
    match readString cs with
    | some (text, rest) => some (.string text, rest)
    | none => readScalar cs

/-! ## Documents -/

/-- What a line holds. -/
inductive Statement where
  | pair (pair : Pair)
  | header (isArray : Bool) (path : List String) (key : String)

/-- A header. -/
def readHeader : List Char → Option (Statement × List Char)
  | '[' :: '[' :: rest => do
    let (path, key, rest) ← readKey rest
    return (.header true path key, ← after ']' (← after ']' rest))
  | '[' :: rest => do
    let (path, key, rest) ← readKey rest
    return (.header false path key, ← after ']' rest)
  | _ => none

/-- The statements of a document; `fuel` bounds the number of lines. -/
def readStatements : Nat → List Char → Option (List Statement)
  | 0, _ => none
  | fuel + 1, cs =>
    match skipSpaces cs with
    | [] => some []
    | c :: rest =>
      if c = '#' ∨ c = '\n' ∨ c = '\r' then do readStatements fuel (← afterLine (c :: rest))
      else do
        let (statement, rest) ←
          if c = '[' then readHeader (c :: rest)
          else (readPair (readValue maxDepth) (c :: rest)).map fun (p, rest) => (.pair p, rest)
        let statements ← readStatements fuel (← afterLine rest)
        return statement :: statements

/-- The pairs before the first header, and the sections. -/
def sectionsOf : List Statement → List Pair × List Section
  | [] => ([], [])
  | .pair p :: rest => let (pairs, sections) := sectionsOf rest; (p :: pairs, sections)
  | .header isArray path key :: rest =>
    let (pairs, sections) := sectionsOf rest
    ([], ⟨isArray, path, key, pairs⟩ :: sections)

/-- The members of the document that a text spells; a byte order mark at its start is dropped. -/
def read? (text : String) : Option (List (String × Value)) := do
  let cs := match text.toList with
    | '\ufeff' :: rest => rest
    | cs => cs
  let (pairs, sections) := sectionsOf (← readStatements (cs.length + 1) cs)
  assemble pairs sections

end GatewayControl.Toml
