import MeshTelemetry.Numeric.Radix

/-! Socket addresses: an IPv4 address in four decimal numbers or an IPv6 address in
brackets, then a port. There is one printed form for each address: the longest run
of zero groups is left out, the first of equally long ones. -/

set_option autoImplicit false

namespace MeshTelemetry

inductive SocketAddress
  | v4 (octets : List Nat) (port : Nat)
  /-- Eight groups of sixteen bits, and the scope; zero stands for none. -/
  | v6 (groups : List Nat) (scope port : Nat)
deriving DecidableEq

namespace SocketAddress

/-! Reading. Each reader takes what it can from the front of a text, and gives the rest. -/

abbrev Taking (α : Type) := List Char → Option (α × List Char)

def char (c : Char) : Taking Unit
  | x :: cs => if x = c then some ((), cs) else none
  | [] => none

/-- Take all digits of a radix as a number below a limit. Of limited digits there are
no more; zeros in front may be refused. -/
def number (radix limit : Nat) (maxDigits : Option Nat) (zerosInFront : Bool) : Taking Nat :=
  fun cs => do
    let (digits, rest) := cs.span fun c => (Radix.digit? radix c).isSome
    if maxDigits.any (· < digits.length) then none
    if !zerosInFront && digits.head? == some '0' && decide (1 < digits.length) then none
    some (← Radix.read? radix limit digits, rest)

def octet : Taking Nat := number 10 256 (some 3) false

def group : Taking Nat := number 16 65536 (some 4) true

def dottedOctets : Nat → Taking (List Nat)
  | 0 => fun cs => some ([], cs)
  | n + 1 => fun cs => do
    let ((), cs) ← char '.' cs
    let (o, cs) ← octet cs
    let (os, cs) ← dottedOctets n cs
    some (o :: os, cs)

def octets : Taking (List Nat) := fun cs => do
  let (o, cs) ← octet cs
  let (os, cs) ← dottedOctets 3 cs
  some (o :: os, cs)

def groupsOfOctets : List Nat → List Nat
  | a :: b :: os => (a * 256 + b) :: groupsOfOctets os
  | _ => []

def colonUnless (isFirst : Bool) (cs : List Char) : Option (List Char) :=
  if isFirst then some cs else (char ':' cs).map Prod.snd

/-- Take up to `room` groups. Where two have room, four octets may stand for the last
two; whether they do is told. -/
def groups (isFirst : Bool) : Nat → List Char → List Nat × Bool × List Char
  | 0, cs => ([], false, cs)
  | room + 1, cs =>
    let asOctets := if room = 0 then none else (colonUnless isFirst cs).bind octets
    match asOctets with
    | some (os, cs) => (groupsOfOctets os, true, cs)
    | none =>
      match (colonUnless isFirst cs).bind group with
      | some (g, cs) =>
        let (gs, dotted, cs) := groups false room cs
        (g :: gs, dotted, cs)
      | none => ([], false, cs)

/-- Take eight groups, or fewer around two colons that stand for the zero groups
between them. -/
def address6 : Taking (List Nat) := fun cs =>
  let (head, dotted, cs) := groups true 8 cs
  if head.length = 8 then some (head, cs)
  else if dotted then none
  else do
    let ((), cs) ← char ':' cs
    let ((), cs) ← char ':' cs
    let (tail, _, cs) := groups true (7 - head.length) cs
    some (head ++ List.replicate (8 - head.length - tail.length) 0 ++ tail, cs)

def port : Taking Nat := fun cs => do
  let ((), cs) ← char ':' cs
  number 10 65536 none true cs

def scope (cs : List Char) : Nat × List Char :=
  (do
    let ((), cs) ← char '%' cs
    number 10 UInt32.size none true cs).getD (0, cs)

def socket4 : Taking SocketAddress := fun cs => do
  let (os, cs) ← octets cs
  let (p, cs) ← port cs
  some (.v4 os p, cs)

def socket6 : Taking SocketAddress := fun cs => do
  let ((), cs) ← char '[' cs
  let (gs, cs) ← address6 cs
  let (s, cs) := scope cs
  let ((), cs) ← char ']' cs
  let (p, cs) ← port cs
  some (.v6 gs s p, cs)

def ofText? (s : String) : Option SocketAddress :=
  match (socket4 s.toList).or (socket6 s.toList) with
  | some (a, []) => some a
  | _ => none

/-! Printing -/

def decimal (n : Nat) : String := String.ofList (Nat.toDigits 10 n)

def octetsText (os : List Nat) : String := ".".intercalate (os.map decimal)

def groupsText (gs : List Nat) : String :=
  ":".intercalate (gs.map fun g => String.ofList (Nat.toDigits 16 g))

def zeroRun (gs : List Nat) : Nat := (gs.takeWhile (· == 0)).length

def longestZeroRun (gs : List Nat) : Nat × Nat :=
  (List.range gs.length).foldl
    (fun best start =>
      let run := zeroRun (gs.drop start)
      if best.2 < run then (start, run) else best)
    (0, 0)

def address6Text (gs : List Nat) : String :=
  match gs with
  | [0, 0, 0, 0, 0, 65535, a, b] => "::ffff:" ++ octetsText [a / 256, a % 256, b / 256, b % 256]
  | gs =>
    let (start, length) := longestZeroRun gs
    if 1 < length then groupsText (gs.take start) ++ "::" ++ groupsText (gs.drop (start + length))
    else groupsText gs

def text : SocketAddress → String
  | .v4 os p => octetsText os ++ ":" ++ decimal p
  | .v6 gs s p =>
    "[" ++ address6Text gs ++ (if s = 0 then "" else "%" ++ decimal s) ++ "]:" ++ decimal p

end SocketAddress
end MeshTelemetry
