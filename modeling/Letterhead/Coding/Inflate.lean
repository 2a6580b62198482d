import Letterhead.Bytes
import Letterhead.Coding.Checksum
import Letterhead.Coding.PrefixCode

/-!
Reading compressed bytes: blocks of literals and of copies from what was already read, between a
header and a checksum. A reader asks for a number of bytes and gets at most that many; what follows
them is looked at only as far as no further byte comes of it.
-/

namespace Letterhead.Inflate

structure Result where
  bytes : ByteArray
  ended : Bool
  used : Nat

inductive Ending where
  | over
  | enough
  | failed (stop : Bits.Stop)
deriving DecidableEq

structure Progress where
  bits : Bits
  bytes : ByteArray := .empty
  wanted : Nat

namespace Progress

def isFull (p : Progress) : Bool := p.wanted ≤ p.bytes.size

/-- Copies bytes from a distance back; the copy may overlap itself. -/
def copy (p : Progress) (distance : Nat) : Nat → Progress
  | 0 => p
  | k + 1 =>
    if p.isFull then p
    else
      let x := (p.bytes[p.bytes.size - distance]?).getD 0
      copy { p with bytes := p.bytes.push x } distance k

end Progress

def lengthSymbols : List (Nat × Nat) := [
  (3, 0), (4, 0), (5, 0), (6, 0), (7, 0), (8, 0), (9, 0), (10, 0), (11, 1), (13, 1), (15, 1),
  (17, 1), (19, 2), (23, 2), (27, 2), (31, 2), (35, 3), (43, 3), (51, 3), (59, 3), (67, 4), (83, 4),
  (99, 4), (115, 4), (131, 5), (163, 5), (195, 5), (227, 5), (258, 0)]

def distanceSymbols : List (Nat × Nat) := [
  (1, 0), (2, 0), (3, 0), (4, 0), (5, 1), (7, 1), (9, 2), (13, 2), (17, 3), (25, 3), (33, 4),
  (49, 4), (65, 5), (97, 5), (129, 6), (193, 6), (257, 7), (385, 7), (513, 8), (769, 8), (1025, 9),
  (1537, 9), (2049, 10), (3073, 10), (4097, 11), (6145, 11), (8193, 12), (12289, 12), (16385, 13),
  (24577, 13)]

def extended (table : List (Nat × Nat)) (symbol : Nat) (b : Bits) :
    Except Bits.Stop (Nat × Bits) := do
  match table[symbol]? with
  | some (least, extra) =>
    let (n, b) ← b.number extra
    return (least + n, b)
  | none => throw .bad

inductive Piece where
  | literal (byte : UInt8)
  | copy (length distance : Nat)
  | over

def piece (literals distances : PrefixCode) (b : Bits) : Except Bits.Stop (Piece × Bits) := do
  let (s, b) ← literals.symbol b
  if s < 256 then return (.literal (UInt8.ofNat s), b)
  else if s = 256 then return (.over, b)
  else
    let (length, b) ← extended lengthSymbols (s - 257) b
    let (d, b) ← distances.symbol b
    let (distance, b) ← extended distanceSymbols d b
    return (.copy length distance, b)

def pieces (literals distances : PrefixCode) : Nat → Progress → Ending × Progress
  | 0, p => (.failed .cut, p)
  | fuel + 1, p =>
    match piece literals distances p.bits with
    | .error e => (.failed e, p)
    | .ok (.over, b) => (.over, { p with bits := b })
    | .ok (.literal x, b) =>
      if p.isFull then (.enough, { p with bits := b })
      else pieces literals distances fuel { p with bits := b, bytes := p.bytes.push x }
    | .ok (.copy length distance, b) =>
      if p.bytes.size < distance then (.failed .bad, p)
      else if p.isFull then (.enough, { p with bits := b })
      else
        let more := p.wanted - p.bytes.size
        let p := Progress.copy { p with bits := b } distance length
        if more < length then (.enough, p) else pieces literals distances fuel p

def stored : Nat → Progress → Ending × Progress
  | 0, p => (.over, p)
  | k + 1, p =>
    if p.isFull then (.enough, p)
    else
      match p.bits.data[p.bits.position / 8]? with
      | some x => stored k
          { p with
            bits := { p.bits with position := p.bits.position + 8 }
            bytes := p.bytes.push x }
      | none => (.failed .cut, p)

def storedLength (b : Bits) : Except Bits.Stop (Nat × Bits) := do
  let (n, b) ← b.align.number 16
  let (m, b) ← b.number 16
  if n + m = 65535 then return (n, b) else throw .bad

def fixedCodes : PrefixCode × PrefixCode :=
  (PrefixCode.ofLengths (List.replicate 144 8 ++ List.replicate 112 9 ++ List.replicate 24 7 ++
    List.replicate 8 8), PrefixCode.ofLengths (List.replicate 32 5))

def lengthOrder : List Nat := [16, 17, 18, 0, 8, 7, 9, 6, 10, 5, 11, 4, 12, 3, 13, 2, 14, 1, 15]

def threes (b : Bits) : Nat → Except Bits.Stop (List Nat × Bits)
  | 0 => .ok ([], b)
  | k + 1 => do
    let (n, b) ← b.number 3
    let (ns, b) ← threes b k
    return (n :: ns, b)

/-- Reads code lengths, latest first, until there are enough of them. A repetition that leads
further is bad. -/
def lengths (c : PrefixCode) (count : Nat) :
    Nat → List Nat → Bits → Except Bits.Stop (List Nat × Bits)
  | 0, _, _ => .error .bad
  | fuel + 1, before, b =>
    if before.length = count then .ok (before, b)
    else do
      let (s, b) ← c.symbol b
      if s < 16 then lengths c count fuel (s :: before) b
      else
        let (value, least, extra) ← match s, before with
          | 16, [] => throw .bad
          | 16, v :: _ => pure (v, 3, 2)
          | 17, _ => pure (0, 3, 3)
          | _, _ => pure (0, 11, 7)
        let (n, b) ← b.number extra
        if count < before.length + least + n then throw .bad
        else lengths c count fuel (List.replicate (least + n) value ++ before) b

def codes (b : Bits) : Except Bits.Stop ((PrefixCode × PrefixCode) × Bits) := do
  let (n, b) ← b.number 5
  let (d, b) ← b.number 5
  let (k, b) ← b.number 4
  if 29 < n || 29 < d then throw .bad
  let (ls, b) ← threes b (k + 4)
  let order := lengthOrder.zip ls
  let c := PrefixCode.ofLengths ((List.range 19).map fun i => (order.lookup i).getD 0)
  unless c.isComplete do throw .bad
  let (all, b) ← lengths c (n + 257 + d + 1) (n + 257 + d + 2) [] b
  let all := all.reverse
  let literals := PrefixCode.ofLengths (all.take (n + 257))
  let distances := PrefixCode.ofLengths (all.drop (n + 257))
  if (all[256]?).getD 0 = 0 then throw .bad
  unless literals.isComplete || literals.isSingle do throw .bad
  unless distances.isComplete || distances.isSingle || distances.isEmpty do throw .bad
  return ((literals, distances), b)

def block (kind : Nat) (p : Progress) : Ending × Progress :=
  let opened : Except Bits.Stop (Ending × Progress) := do
    match kind with
    | 0 =>
      let (n, b) ← storedLength p.bits
      return stored n { p with bits := b }
    | 1 => return pieces fixedCodes.1 fixedCodes.2 (p.bits.left + 1) p
    | 2 =>
      let (cs, b) ← codes p.bits
      return pieces cs.1 cs.2 (b.left + 1) { p with bits := b }
    | _ => throw .bad
  match opened with
  | .ok r => r
  | .error e => (.failed e, p)

def blocks : Nat → Progress → Ending × Progress
  | 0, p => (.failed .cut, p)
  | fuel + 1, p =>
    match p.bits.number 3 with
    | .error e => (.failed e, p)
    | .ok (n, b) =>
      match block (n / 2) { p with bits := b } with
      | (.over, p) => if n % 2 = 1 then (.over, p) else blocks fuel p
      | r => r

def checksum? (b : Bits) : Option (List UInt8) :=
  let start := b.used
  Bytes.part? 0 4 (Bytes.toList (b.data.extract start (start + 4)))

/-- Reads a stream up to a number of bytes; none if it holds what no stream may hold. -/
def read? (data : ByteArray) (wanted : Nat) : Option Result :=
  match data[0]?, data[1]? with
  | some a, some b =>
    if (a.toNat * 256 + b.toNat) % 31 ≠ 0 || a.toNat % 16 ≠ 8 || 7 < a.toNat / 16 then none
    else if b.toNat / 32 % 2 = 1 then some ⟨.empty, false, 2⟩
    else
      let start : Progress := { bits := { data := data, position := 16 }, wanted := wanted }
      match blocks (data.size * 8) start with
      | (.failed .bad, _) => none
      | (.over, p) =>
        match checksum? p.bits with
        | some sum =>
          if Bytes.ofBig sum = Checksum.adler p.bytes then some ⟨p.bytes, true, p.bits.used + 4⟩
          else none
        | none => some ⟨p.bytes, false, data.size⟩
      | (_, p) => some ⟨p.bytes, false, p.bits.used⟩
  | _, _ => some ⟨.empty, false, data.size⟩

end Letterhead.Inflate
