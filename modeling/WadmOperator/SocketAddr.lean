import Mathlib.Data.List.Basic

/-!
# `SocketAddr::from_str`

The address parser of Rust's `core::net`, which decides whether a manifest's
address yields a Service and with which port. Parsers take the remaining
characters and return a value with the characters they leave; where the Rust
parser restores its position on failure, the caller here keeps its input.
-/

namespace WadmOperator

inductive SocketAddr where
  | v4 (octets : Nat × Nat × Nat × Nat) (port : Nat)
  | v6 (segments : List Nat) (scopeId : Nat) (port : Nat)
  deriving DecidableEq

namespace SocketAddr

def port : SocketAddr → Nat
  | v4 _ port => port
  | v6 _ _ port => port

/-- `char::to_digit` for the radices 10 and 16. -/
def toDigit (radix : Nat) (c : Char) : Option Nat :=
  if '0' ≤ c ∧ c ≤ '9' then some (c.toNat - '0'.toNat)
  else if radix = 16 ∧ 'a' ≤ c ∧ c ≤ 'f' then some (c.toNat - 'a'.toNat + 10)
  else if radix = 16 ∧ 'A' ≤ c ∧ c ≤ 'F' then some (c.toNat - 'A'.toNat + 10)
  else none

def takeDigits (radix : Nat) : List Char → List Nat × List Char
  | [] => ([], [])
  | c :: cs =>
    match toDigit radix c with
    | some d => (d :: (takeDigits radix cs).1, (takeDigits radix cs).2)
    | none => ([], c :: cs)

def readNumber (radix bound : Nat) (maxDigits : Option Nat) (allowZeroPrefix : Bool)
    (s : List Char) : Option (Nat × List Char) :=
  let (digits, rest) := takeDigits radix s
  let value := digits.foldl (fun n d => n * radix + d) 0
  if digits.isEmpty then none
  else if maxDigits.any (· < digits.length) then none
  else if !allowZeroPrefix && digits.head? = some 0 && 1 < digits.length then none
  else if value < bound then some (value, rest)
  else none

def readGivenChar (target : Char) : List Char → Option (List Char)
  | [] => none
  | c :: cs => if c = target then some cs else none

def readSeparator {α : Type} (sep : Char) (index : Nat)
    (inner : List Char → Option (α × List Char)) (s : List Char) : Option (α × List Char) :=
  if 0 < index then (readGivenChar sep s).bind inner else inner s

def readOctet : List Char → Option (Nat × List Char) := readNumber 10 256 (some 3) false

def readIpv4Addr (s : List Char) : Option ((Nat × Nat × Nat × Nat) × List Char) := do
  let (a, s) ← readSeparator '.' 0 readOctet s
  let (b, s) ← readSeparator '.' 1 readOctet s
  let (c, s) ← readSeparator '.' 2 readOctet s
  let (d, s) ← readSeparator '.' 3 readOctet s
  return ((a, b, c, d), s)

/-- `read_groups` with `n` of the `limit` groups still to fill. The flag says that
the groups end in an embedded IPv4 address, which needs two of them. -/
def readGroups (limit : Nat) : Nat → List Char → List Nat × Bool × List Char
  | 0, s => ([], false, s)
  | n + 1, s =>
    let i := limit - (n + 1)
    match if 1 ≤ n then readSeparator ':' i readIpv4Addr s else none with
    | some ((a, b, c, d), s) => ([a * 256 + b, c * 256 + d], true, s)
    | none =>
      match readSeparator ':' i (readNumber 16 65536 (some 4) true) s with
      | some (g, s) =>
        let (groups, embedded, s) := readGroups limit n s
        (g :: groups, embedded, s)
      | none => ([], false, s)

def readIpv6Addr (s : List Char) : Option (List Nat × List Char) :=
  let (head, embedded, s) := readGroups 8 8 s
  if head.length = 8 then some (head, s)
  -- an embedded IPv4 address is not allowed before the `::`
  else if embedded then none
  else do
    let s ← readGivenChar ':' s
    let s ← readGivenChar ':' s
    let limit := 8 - (head.length + 1)
    let (tail, _, s) := readGroups limit limit s
    return (head ++ List.replicate (8 - head.length - tail.length) 0 ++ tail, s)

def readPort (s : List Char) : Option (Nat × List Char) :=
  (readGivenChar ':' s).bind (readNumber 10 65536 none true)

def readScopeId (s : List Char) : Option (Nat × List Char) :=
  (readGivenChar '%' s).bind (readNumber 10 4294967296 none true)

def readSocketAddrV4 (s : List Char) : Option (SocketAddr × List Char) := do
  let (ip, s) ← readIpv4Addr s
  let (port, s) ← readPort s
  return (v4 ip port, s)

def readSocketAddrV6 (s : List Char) : Option (SocketAddr × List Char) := do
  let s ← readGivenChar '[' s
  let (ip, s) ← readIpv6Addr s
  let (scopeId, s) := (readScopeId s).getD (0, s)
  let s ← readGivenChar ']' s
  let (port, s) ← readPort s
  return (v6 ip scopeId port, s)

/-- `str::parse::<SocketAddr>`: the whole text has to be read. -/
def parse (text : String) : Option SocketAddr :=
  match (readSocketAddrV4 text.toList).orElse fun _ => readSocketAddrV6 text.toList with
  | some (addr, []) => some addr
  | _ => none

example : parse "0.0.0.0:8080" = some (v4 (0, 0, 0, 0) 8080) := by decide
example : parse "[::ffff:10.0.0.1%3]:80" =
    some (v6 [0, 0, 0, 0, 0, 65535, 2560, 1] 3 80) := by decide
example : parse "0.0.0.00:8080" = none := by decide

end SocketAddr
end WadmOperator
