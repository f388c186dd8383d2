namespace TurnRelay

/-- A string is `none` if it holds an escaped surrogate without its partner, which is no text. -/
inductive Json
  | null
  | bool (value : Bool)
  | natural (value : Nat)
  | number (literal : String)
  | string (text : Option String)
  | array (items : List Json)
  | object (members : List (Option String × Json))

namespace Json

def ofText (text : String) : Json := string (some text)

def ofMembers (members : List (String × Json)) : Json :=
  object (members.map fun (key, value) => (some key, value))

def text? : Json → Option String
  | string text => text
  | _ => none

def naturalBelow? (bound : Nat) : Json → Option Nat
  | natural value => if value < bound then some value else none
  | _ => none

def items? : Json → Option (List Json)
  | array items => some items
  | _ => none

def hexDigit (n : Nat) : Char := .ofNat (if n < 10 then 48 + n else 87 + n)

def escape : Char → String
  | '"' => "\\\""
  | '\\' => "\\\\"
  | '\x08' => "\\b"
  | '\x0c' => "\\f"
  | '\n' => "\\n"
  | '\r' => "\\r"
  | '\t' => "\\t"
  | c => if c.toNat < 32 then .ofList ['\\', 'u', '0', '0', hexDigit (c.toNat / 16), hexDigit (c.toNat % 16)]
    else .singleton c

def quote (text : String) : String := "\"" ++ .join (text.toList.map escape) ++ "\""

mutual

def render : Json → String
  | null => "null"
  | bool value => if value then "true" else "false"
  | natural value => toString value
  | number literal => literal
  | string text => quote (text.getD "")
  | array items => "[" ++ ",".intercalate (renderItems items) ++ "]"
  | object members => "\x7b" ++ ",".intercalate (renderMembers members) ++ "\x7d"

def renderItems : List Json → List String
  | [] => []
  | item :: items => item.render :: renderItems items

def renderMember : Option String × Json → String
  | (key, value) => quote (key.getD "") ++ ":" ++ value.render

def renderMembers : List (Option String × Json) → List String
  | [] => []
  | member :: members => renderMember member :: renderMembers members

end

end Json

namespace Json

inductive Token
  | openArray
  | closeArray
  | openObject
  | closeObject
  | comma
  | colon
  | null
  | bool (value : Bool)
  | natural (value : Nat)
  | number (literal : String)
  | string (text : Option String)
  deriving DecidableEq

/-- A string before its surrogates are joined: characters, and code units given by number. -/
inductive Piece
  | char (c : Char)
  | unit (n : Nat)
  deriving DecidableEq

def isSpace (c : Char) : Bool := c = ' ' || c = '\t' || c = '\n' || c = '\r'

def hexValue? (c : Char) : Option Nat :=
  if c.isDigit then some (c.toNat - 48)
  else if 'a' ≤ c ∧ c ≤ 'f' then some (c.toNat - 87)
  else if 'A' ≤ c ∧ c ≤ 'F' then some (c.toNat - 55)
  else none

def unescape? : Char → Option Char
  | '"' => some '"'
  | '\\' => some '\\'
  | '/' => some '/'
  | 'b' => some '\x08'
  | 'f' => some '\x0c'
  | 'n' => some '\n'
  | 'r' => some '\r'
  | 't' => some '\t'
  | _ => none

def pieces? (found : List Piece) : List Char → Option (List Piece × List Char)
  | [] => none
  | '"' :: rest => some (found.reverse, rest)
  | '\\' :: 'u' :: a :: b :: c :: d :: rest => do
    let n := (← hexValue? a) * 4096 + (← hexValue? b) * 256 + (← hexValue? c) * 16 + (← hexValue? d)
    pieces? (.unit n :: found) rest
  | '\\' :: c :: rest => do pieces? (.char (← unescape? c) :: found) rest
  | c :: rest => if c.toNat < 32 then none else pieces? (.char c :: found) rest

def join? (found : List Char) : List Piece → Option (List Char)
  | [] => some found.reverse
  | .char c :: rest => join? (c :: found) rest
  | .unit high :: .unit low :: rest =>
    if 0xD800 ≤ high ∧ high < 0xDC00 then
      if 0xDC00 ≤ low ∧ low < 0xE000 then
        join? (.ofNat (0x10000 + (high - 0xD800) * 0x400 + (low - 0xDC00)) :: found) rest
      else none
    else if 0xDC00 ≤ high ∧ high < 0xE000 then none
    else join? (.ofNat high :: found) (.unit low :: rest)
  | .unit n :: rest => if 0xD800 ≤ n ∧ n < 0xE000 then none else join? (.ofNat n :: found) rest

def digits? (chars : List Char) : Option (List Char × List Char) :=
  let (digits, rest) := chars.span (·.isDigit)
  if digits.isEmpty then none else some (digits, rest)

def integer? : List Char → Option (List Char × List Char)
  | '0' :: rest => some (['0'], rest)
  | chars => digits? chars

def fraction? : List Char → Option (List Char × List Char)
  | '.' :: rest => do
    let (digits, rest) ← digits? rest
    return ('.' :: digits, rest)
  | rest => some ([], rest)

def exponent? : List Char → Option (List Char × List Char)
  | e :: rest =>
    if e = 'e' ∨ e = 'E' then do
      let (sign, rest) := match rest with
        | '+' :: rest => (['+'], rest)
        | '-' :: rest => (['-'], rest)
        | rest => ([], rest)
      let (digits, rest) ← digits? rest
      return (e :: sign ++ digits, rest)
    else some ([], e :: rest)
  | [] => some ([], [])

def number? (chars : List Char) : Option (Token × List Char) := do
  let (sign, rest) := match chars with
    | '-' :: rest => (['-'], rest)
    | rest => ([], rest)
  let (whole, rest) ← integer? rest
  let (fraction, rest) ← fraction? rest
  let (exponent, rest) ← exponent? rest
  if (sign ++ fraction ++ exponent).isEmpty then
    return (.natural (whole.foldl (fun n c => n * 10 + (c.toNat - 48)) 0), rest)
  else return (.number (.ofList (sign ++ whole ++ fraction ++ exponent)), rest)

namespace Token

def next? : List Char → Option (Token × List Char)
  | '[' :: rest => some (openArray, rest)
  | ']' :: rest => some (closeArray, rest)
  | '\x7b' :: rest => some (openObject, rest)
  | '\x7d' :: rest => some (closeObject, rest)
  | ',' :: rest => some (comma, rest)
  | ':' :: rest => some (colon, rest)
  | 'n' :: 'u' :: 'l' :: 'l' :: rest => some (null, rest)
  | 't' :: 'r' :: 'u' :: 'e' :: rest => some (bool true, rest)
  | 'f' :: 'a' :: 'l' :: 's' :: 'e' :: rest => some (bool false, rest)
  | '"' :: rest => do
    let (pieces, rest) ← pieces? [] rest
    return (string ((join? [] pieces).map String.ofList), rest)
  | chars => number? chars

/-- All tokens of a text, in at most `fuel` steps, behind those in `found`. -/
def scanWithin (found : List Token) : Nat → List Char → Option (List Token)
  | 0, _ => none
  | _ + 1, [] => some found.reverse
  | fuel + 1, c :: rest =>
    if isSpace c then scanWithin found fuel rest
    else do
      let (token, rest) ← next? (c :: rest)
      scanWithin (token :: found) fuel rest

def scan (chars : List Char) : Option (List Token) := scanWithin [] (chars.length + 1) chars

end Token

end Json

namespace Json

/-- An array or object whose end has not been read, with its elements backwards. -/
inductive Frame
  | array (items : List Json)
  | object (members : List (Option String × Json)) (key : Option String)

def Token.scalar? : Token → Option Json
  | null => some .null
  | bool value => some (.bool value)
  | natural value => some (.natural value)
  | number literal => some (.number literal)
  | string text => some (.string text)
  | _ => none

mutual

def readValue (stack : List Frame) : List Token → Option Json
  | .openArray :: .closeArray :: rest => readAfter stack (.array []) rest
  | .openArray :: rest => readValue (.array [] :: stack) rest
  | .openObject :: .closeObject :: rest => readAfter stack (.object []) rest
  | .openObject :: .string key :: .colon :: rest => readValue (.object [] key :: stack) rest
  | token :: rest => do readAfter stack (← token.scalar?) rest
  | [] => none

def readAfter (stack : List Frame) (value : Json) (tokens : List Token) : Option Json :=
  match stack, tokens with
  | [], [] => some value
  | .array items :: stack, .comma :: rest => readValue (.array (value :: items) :: stack) rest
  | .array items :: stack, .closeArray :: rest => readAfter stack (.array (value :: items).reverse) rest
  | .object members key :: stack, .comma :: .string next :: .colon :: rest =>
    readValue (.object ((key, value) :: members) next :: stack) rest
  | .object members key :: stack, .closeObject :: rest =>
    readAfter stack (.object ((key, value) :: members).reverse) rest
  | _, _ => none

end

def ofString? (text : String) : Option Json := do readValue [] (← Token.scan text.toList)

/-- The values of the named fields, given as the members of an object in any order or as an array in
the order of the names. An object may have further members and an array may end early; no named field
is given twice, and every key is a text. -/
def fields? (names : List String) : Json → Option (List (Option Json))
  | object members => do
    let keys ← members.mapM (·.1)
    if names.all (keys.count · ≤ 1) then
      return names.map fun name => (members.find? (·.1 = some name)).map (·.2)
    else none
  | array items =>
    if items.length ≤ names.length then
      some ((List.range names.length).map (items[·]?))
    else none
  | _ => none

end Json

end TurnRelay
