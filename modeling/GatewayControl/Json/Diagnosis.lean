import GatewayControl.Json.Tree

/-!
# `GatewayControl.Json.Diagnosis` -- where a text stops being JSON

Whoever wrote a file by hand has to be told what is wrong with it, and where. `scanValue` goes
through a text once, as a reader of values would, and stops at the first thing that no value has
there. A place is given by the bytes that are left after it, and shown as a line and a column.
-/

namespace GatewayControl.Json

/-- Why a text is not the form of a value. -/
inductive SyntaxFault where
  | endInList | endInObject | endInString | endInValue
  | expectedColon | expectedListEnd | expectedObjectEnd | expectedWord | expectedValue
  | badEscape | badNumber | outOfRange | controlCharacter | keyIsNoString
  | unpairedSurrogate | unfinishedPair | trailingComma | trailingText | tooDeep
deriving DecidableEq, Repr

/-- The wording of a fault. -/
def SyntaxFault.message : SyntaxFault → String
  | endInList => "EOF while parsing a list"
  | endInObject => "EOF while parsing an object"
  | endInString => "EOF while parsing a string"
  | endInValue => "EOF while parsing a value"
  | expectedColon => "expected \x60:\x60"
  | expectedListEnd => "expected \x60,\x60 or \x60]\x60"
  | expectedObjectEnd => "expected \x60,\x60 or \x60\x7d\x60"
  | expectedWord => "expected ident"
  | expectedValue => "expected value"
  | badEscape => "invalid escape"
  | badNumber => "invalid number"
  | outOfRange => "number out of range"
  | controlCharacter => "control character (\\u0000-\\u001F) found while parsing a string"
  | keyIsNoString => "key must be a string"
  | unpairedSurrogate => "lone leading surrogate in hex escape"
  | unfinishedPair => "unexpected end of hex escape"
  | trailingComma => "trailing comma"
  | trailingText => "trailing characters"
  | tooDeep => "recursion limit exceeded"

/-- A fault, and how many bytes are left after the place where it shows. -/
structure Stop where
  fault : SyntaxFault
  left : Nat
deriving DecidableEq, Repr

namespace Stop

/-- The bytes of a text up to the place of a fault. -/
def read (text : Bytes) (s : Stop) : Bytes := text.take (text.length - s.left)

/-- The line of a fault, counted from one. -/
def line (text : Bytes) (s : Stop) : Nat := (s.read text).count 10 + 1

/-- The bytes of the line up to the fault. -/
def column (text : Bytes) (s : Stop) : Nat :=
  ((s.read text).reverse.takeWhile fun (b : UInt8) => b ≠ 10).length

/-- A fault with its place. -/
def message (text : Bytes) (s : Stop) : String :=
  s.fault.message ++ " at line " ++ toString (s.line text) ++ " column " ++ toString (s.column text)

end Stop

/-- Stops before the bytes that are left. -/
def stop {α : Type} (fault : SyntaxFault) (left : Bytes) : Except Stop α := .error ⟨fault, left.length⟩

/-! ## Strings -/

/-- Where a scan is inside a string. -/
inductive StringState where
  | plain
  | afterBackslash
  /-- In an escape: how many digits are to come, the number so far unless a digit was wrong, and
  whether the escape has to be the second of a pair. -/
  | digits (toCome : Nat) (value : Option Nat) (isSecond : Bool)
  | beforeBackslash
  | beforeU

/-- The state after an escape of a unit. -/
def StringState.afterUnit (isSecond : Bool) : Option Nat → Except SyntaxFault StringState
  | none => .error .badEscape
  | some n =>
    if isSecond then if 0xDC00 ≤ n ∧ n < 0xE000 then .ok plain else .error .unpairedSurrogate
    else if 0xDC00 ≤ n ∧ n < 0xE000 then .error .unpairedSurrogate
    else if 0xD800 ≤ n ∧ n < 0xDC00 then .ok beforeBackslash
    else .ok plain

/-- The state after one byte other than the closing quote. -/
def StringState.next (b : UInt8) : StringState → Except SyntaxFault StringState
  | plain => if b = 92 then .ok afterBackslash else if b < 32 then .error .controlCharacter else .ok plain
  | afterBackslash =>
    if b = 117 then .ok (digits 3 (some 0) false)
    else if (shortEscape? b).isSome then .ok plain
    else .error .badEscape
  | digits toCome value isSecond =>
    let value := do return (← value) * 16 + (← hexValue? b)
    match toCome with
    | 0 => afterUnit isSecond value
    | n + 1 => .ok (digits n value isSecond)
  | beforeBackslash => if b = 92 then .ok beforeU else .error .unfinishedPair
  | beforeU => if b = 117 then .ok (digits 3 (some 0) true) else .error .unfinishedPair

/-- Scans a string up to its closing quote. -/
def scanString : StringState → Bytes → Except Stop Bytes
  | _, [] => stop .endInString []
  | .plain, 34 :: rest => .ok rest
  | state, b :: rest =>
    match state.next b with
    | .error fault => stop fault rest
    | .ok state => scanString state rest

/-! ## Numbers and words -/

/-- How many digits of an exponent are read before it is too large to be told from a larger one. -/
def readableDigits (e : Nat) : List Nat → Nat
  | [] => 0
  | d :: ds => if maxExponent < e * 10 + d then 1 else readableDigits (e * 10 + d) ds + 1

/-- Stops at a number whose magnitude is beyond all others; `exponent` is the text of its exponent. -/
def checkRange (literal : Literal) (exponent rest : Bytes) : Except Stop Bytes :=
  if literal.number?.isSome then .ok rest
  else match literal.exponent with
    | some (_, digits) =>
      if maxExponent < digitsValue digits then stop .outOfRange (exponent.drop (readableDigits 0 digits))
      else stop .outOfRange rest
    | none => stop .outOfRange rest

/-- Scans an exponent, if there is one. -/
def scanExponent (negative : Bool) (whole fraction : List Nat) : Bytes → Except Stop Bytes
  | [] => checkRange ⟨negative, whole, fraction, none⟩ [] []
  | e :: rest =>
    if e = 101 || e = 69 then
      let (isNegative, rest) := match rest with
        | 43 :: rest => (false, rest)
        | 45 :: rest => (true, rest)
        | rest => (false, rest)
      match rest, readDigits rest with
      | [], _ => stop .endInValue []
      | _ :: rest, ([], _) => stop .badNumber rest
      | exponent, (digits, rest) => checkRange ⟨negative, whole, fraction, some (isNegative, digits)⟩ exponent rest
    else checkRange ⟨negative, whole, fraction, none⟩ [] (e :: rest)

/-- Scans the digits after a point, if there is one. -/
def scanFraction (negative : Bool) (whole : List Nat) : Bytes → Except Stop Bytes
  | 46 :: rest =>
    match rest, readDigits rest with
    | [], _ => stop .endInValue []
    | _ :: rest, ([], _) => stop .badNumber rest
    | _, (digits, rest) => scanExponent negative whole digits rest
  | rest => scanExponent negative whole [] rest

/-- Scans a number after its sign. -/
def scanNumber (negative : Bool) (bs : Bytes) : Except Stop Bytes :=
  match bs, readDigits bs with
  | [], _ => stop .endInValue []
  | _ :: rest, ([], _) => stop .badNumber rest
  | _ :: _ :: rest, (0 :: _ :: _, _) => stop .badNumber rest
  | _, (whole, rest) => scanFraction negative whole rest

/-- Scans what is left of a word. -/
def scanWord : List Char → Bytes → Except Stop Bytes
  | [], rest => .ok rest
  | _ :: _, [] => stop .endInValue []
  | c :: word, b :: rest => if b = Bytes.ascii c then scanWord word rest else stop .expectedWord rest

/-! ## Values -/

mutual

/-- Scans a value with at most `depth` containers inside each other; each call in a chain uses one
unit of `fuel`. -/
def scanValue : Nat → Nat → Bytes → Except Stop Bytes
  | 0, _, bs => stop .tooDeep bs
  | fuel + 1, depth, bs =>
    match skipBlanks bs with
    | [] => stop .endInValue []
    | 34 :: rest => scanString .plain rest
    | 91 :: rest =>
      match depth, skipBlanks rest with
      | 0, _ => stop .tooDeep rest
      | _ + 1, [] => stop .endInList []
      | _ + 1, 93 :: rest => .ok rest
      | depth + 1, rest => scanItems fuel depth rest
    | 123 :: rest =>
      match depth, skipBlanks rest with
      | 0, _ => stop .tooDeep rest
      | _ + 1, [] => stop .endInObject []
      | _ + 1, 125 :: rest => .ok rest
      | depth + 1, 34 :: rest => scanFields fuel depth rest
      | _ + 1, _ :: rest => stop .keyIsNoString rest
    | 110 :: rest => scanWord "ull".toList rest
    | 116 :: rest => scanWord "rue".toList rest
    | 102 :: rest => scanWord "alse".toList rest
    | 45 :: rest => scanNumber true rest
    | b :: rest => if isDigit b then scanNumber false (b :: rest) else stop .expectedValue rest

/-- Scans the items of an array up to its closing bracket. -/
def scanItems : Nat → Nat → Bytes → Except Stop Bytes
  | 0, _, bs => stop .tooDeep bs
  | fuel + 1, depth, bs =>
    match scanValue fuel depth bs with
    | .error s => .error s
    | .ok rest =>
      match skipBlanks rest with
      | [] => stop .endInList []
      | 93 :: rest => .ok rest
      | 44 :: rest =>
        match skipBlanks rest with
        | [] => stop .endInValue []
        | 93 :: rest => stop .trailingComma rest
        | rest => scanItems fuel depth rest
      | _ :: rest => stop .expectedListEnd rest

/-- Scans the fields of an object from behind the opening quote of a key to its closing brace. -/
def scanFields : Nat → Nat → Bytes → Except Stop Bytes
  | 0, _, bs => stop .tooDeep bs
  | fuel + 1, depth, bs =>
    match scanString .plain bs with
    | .error s => .error s
    | .ok rest =>
      match skipBlanks rest with
      | [] => stop .endInObject []
      | 58 :: rest =>
        match scanValue fuel depth rest with
        | .error s => .error s
        | .ok rest =>
          match skipBlanks rest with
          | [] => stop .endInObject []
          | 125 :: rest => .ok rest
          | 44 :: rest =>
            match skipBlanks rest with
            | [] => stop .endInValue []
            | 34 :: rest => scanFields fuel depth rest
            | 125 :: rest => stop .trailingComma rest
            | _ :: rest => stop .keyIsNoString rest
          | _ :: rest => stop .expectedObjectEnd rest
      | _ :: rest => stop .expectedColon rest

end

/-- Scans the value at the start of a text; what follows it is left. -/
def scan (text : Bytes) : Except Stop Bytes := scanValue (2 * text.length + 2) maxDepth text

/-- What follows the value at the start of a text is white space. -/
def checkEnd (rest : Bytes) : Except Stop Unit :=
  match skipBlanks rest with
  | [] => .ok ()
  | _ :: rest => stop .trailingText rest

end GatewayControl.Json
