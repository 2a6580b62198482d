/-!
Bytes: numbers written over several bytes, and the list view of an array of bytes.
-/

namespace Letterhead.Bytes

def toList (b : ByteArray) : List UInt8 := b.data.toList

def ofList (bs : List UInt8) : ByteArray := ⟨bs.toArray⟩

def big : Nat → Nat → List UInt8
  | 0, _ => []
  | k + 1, n => big k (n / 256) ++ [UInt8.ofNat n]

def little : Nat → Nat → List UInt8
  | 0, _ => []
  | k + 1, n => UInt8.ofNat n :: little k (n / 256)

def ofBig (bs : List UInt8) : Nat := bs.foldl (fun n b => n * 256 + b.toNat) 0

def ofLittle (bs : List UInt8) : Nat := bs.foldr (fun b n => b.toNat + 256 * n) 0

def part? (start count : Nat) (bs : List UInt8) : Option (List UInt8) :=
  let r := (bs.drop start).take count
  if r.length = count then some r else none

def bigAt? (start count : Nat) (bs : List UInt8) : Option Nat := (part? start count bs).map ofBig

def littleAt? (start count : Nat) (bs : List UInt8) : Option Nat :=
  (part? start count bs).map ofLittle

def zeros (n : Nat) : ByteArray := ⟨Array.replicate n 0⟩

@[simp] theorem toList_ofList (bs : List UInt8) : toList (ofList bs) = bs := by
  simp [toList, ofList]

@[simp] theorem ofList_toList (b : ByteArray) : ofList (toList b) = b := by
  cases b
  simp [toList, ofList]

@[simp] theorem length_big (k n : Nat) : (big k n).length = k := by
  induction k generalizing n with
  | zero => rfl
  | succ k ih => simp [big, ih]

@[simp] theorem length_little (k n : Nat) : (little k n).length = k := by
  induction k generalizing n with
  | zero => rfl
  | succ k ih => simp [little, ih]

theorem ofBig_append_singleton (bs : List UInt8) (b : UInt8) :
    ofBig (bs ++ [b]) = ofBig bs * 256 + b.toNat := by
  simp [ofBig]

theorem ofBig_big {k n : Nat} (h : n < Nat.pow 256 k) : ofBig (big k n) = n := by
  induction k generalizing n with
  | zero =>
    have : n = 0 := by simpa using h
    simp [this, big, ofBig]
  | succ k ih =>
    have hd : n / 256 < Nat.pow 256 k :=
      (Nat.div_lt_iff_lt_mul (by decide : 0 < 256)).2 h
    rw [big, ofBig_append_singleton, ih hd]
    simp only [UInt8.toNat_ofNat']
    omega

end Letterhead.Bytes
