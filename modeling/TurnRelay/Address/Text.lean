import TurnRelay.Address
import TurnRelay.Bytes

namespace TurnRelay

namespace Text

abbrev Reader (α : Type) := List Char → Option (α × List Char)

def expect (c : Char) (s : List Char) : Option (List Char) :=
  match s with
  | [] => none
  | d :: rest => if d = c then some rest else none

def digit? (radix : Nat) (c : Char) : Option Nat :=
  let value :=
    if '0' ≤ c ∧ c ≤ '9' then c.toNat - '0'.toNat
    else if 'a' ≤ c ∧ c ≤ 'f' then c.toNat - 'a'.toNat + 10
    else if 'A' ≤ c ∧ c ≤ 'F' then c.toNat - 'A'.toNat + 10
    else radix
  if value < radix then some value else none

def digits (radix : Nat) : List Char → List Nat × List Char
  | [] => ([], [])
  | c :: rest =>
    match digit? radix c with
    | none => ([], c :: rest)
    | some d =>
      let (ds, rest) := digits radix rest
      (d :: ds, rest)

def number (radix : Nat) : Reader (List Nat × Nat) := fun s =>
  match digits radix s with
  | ([], _) => none
  | (ds, rest) => some ((ds, ds.foldl (fun n d => n * radix + d) 0), rest)

def decimalBelow (bound : Nat) : Reader Nat := fun s =>
  match number 10 s with
  | some ((_, value), rest) => if value < bound then some (value, rest) else none
  | none => none

end Text

open Text

namespace IpAddress

def readOctet : Reader Nat := fun s =>
  match number 10 s with
  | some ((ds, value), rest) =>
    if value < 256 ∧ (ds.head? = some 0 → ds = [0]) then some (value, rest) else none
  | none => none

def readV4 : Reader (BitVec 32) := fun s => do
  let (a, s) ← readOctet s
  let (b, s) ← readOctet (← expect '.' s)
  let (c, s) ← readOctet (← expect '.' s)
  let (d, s) ← readOctet (← expect '.' s)
  return (.ofNat 32 (ofBigEndian [.ofNat a, .ofNat b, .ofNat c, .ofNat d]), s)

def readGroup : Reader Nat := fun s =>
  match number 16 s with
  | some ((ds, value), rest) => if ds.length ≤ 4 then some (value, rest) else none
  | none => none

structure Groups where
  groups : List Nat
  endsDotted : Bool
  rest : List Char

/-- At most `limit` groups with colons between them. A dotted form stands for two groups and ends the
row. Where no further group follows, the colon before it is left in place. -/
def readGroups : (limit : Nat) → (first : Bool) → List Char → Groups
  | 0, _, s => ⟨[], false, s⟩
  | limit + 1, first, s =>
    match if first then some s else expect ':' s with
    | none => ⟨[], false, s⟩
    | some t =>
      match if 0 < limit then readV4 t else none with
      | some (bits, rest) => ⟨[bits.toNat / 65536, bits.toNat % 65536], true, rest⟩
      | none =>
        match readGroup t with
        | none => ⟨[], false, s⟩
        | some (group, rest) =>
          let more := readGroups limit false rest
          ⟨group :: more.groups, more.endsDotted, more.rest⟩

def ofGroups (groups : List Nat) : BitVec 128 := .ofNat 128 (groups.foldl (fun n g => n * 65536 + g) 0)

def readV6 : Reader (BitVec 128) := fun s =>
  let head := readGroups 8 true s
  if head.groups.length = 8 then some (ofGroups head.groups, head.rest)
  else if head.endsDotted then none
  else do
    let tail := readGroups (7 - head.groups.length) true (← expect ':' (← expect ':' head.rest))
    let gap := 8 - head.groups.length - tail.groups.length
    return (ofGroups (head.groups ++ List.replicate gap 0 ++ tail.groups), tail.rest)

def ofText? (text : String) : Option IpAddress :=
  match readV4 text.toList with
  | some (bits, []) => some (.v4 bits)
  | _ =>
    match readV6 text.toList with
    | some (bits, []) => some (.v6 bits)
    | _ => none

def writeV4 (bits : BitVec 32) : String :=
  ".".intercalate ((bigEndian 4 bits.toNat).map fun octet => toString octet.toNat)

def groupsOf (bits : BitVec 128) : List Nat :=
  (List.range 8).map fun i => (bits.extractLsb' (16 * (7 - i)) 16).toNat

def zeroRun (groups : List Nat) : Nat := (groups.takeWhile (· = 0)).length

def longestZeroRun (start : Nat) : List Nat → Nat × Nat
  | [] => (start, 0)
  | g :: rest =>
    let later := longestZeroRun (start + 1) rest
    let here := zeroRun (g :: rest)
    if later.2 ≤ here then (start, here) else later

def writeGroups (groups : List Nat) : String :=
  ":".intercalate (groups.map fun g => String.ofList (Nat.toDigits 16 g))

def writeV6 (bits : BitVec 128) : String :=
  let groups := groupsOf bits
  if bits.extractLsb' 32 96 = 0xFFFF then "::ffff:" ++ writeV4 (bits.setWidth 32)
  else
    let (start, length) := longestZeroRun 0 groups
    if length < 2 then writeGroups groups
    else writeGroups (groups.take start) ++ "::" ++ writeGroups (groups.drop (start + length))

def text : IpAddress → String
  | v4 bits => writeV4 bits
  | v6 bits => writeV6 bits

end IpAddress

namespace TransportAddress

def readV4 : Reader TransportAddress := fun s => do
  let (bits, s) ← IpAddress.readV4 s
  let (port, s) ← decimalBelow 65536 (← expect ':' s)
  return (.v4 bits (.ofNat port), s)

/-- A scope that is not a 32-bit number is no scope, and then no bracket follows. -/
def readScope (s : List Char) : Nat × List Char :=
  match expect '%' s with
  | none => (0, s)
  | some t => (decimalBelow UInt32.size t).getD (0, s)

def readV6 : Reader TransportAddress := fun s => do
  let (bits, s) ← IpAddress.readV6 (← expect '[' s)
  let (scope, s) := readScope s
  let (port, s) ← decimalBelow 65536 (← expect ':' (← expect ']' s))
  return (.v6 bits (.ofNat port) 0 (.ofNat scope), s)

def ofText? (text : String) : Option TransportAddress :=
  match (readV4 text.toList).orElse fun _ => readV6 text.toList with
  | some (address, []) => some address
  | _ => none

def text : TransportAddress → String
  | v4 bits port => IpAddress.writeV4 bits ++ ":" ++ toString port.toNat
  | v6 bits port _ scope =>
    let zone := if scope = 0 then "" else "%" ++ toString scope.toNat
    "[" ++ IpAddress.writeV6 bits ++ zone ++ "]:" ++ toString port.toNat

end TransportAddress

end TurnRelay
