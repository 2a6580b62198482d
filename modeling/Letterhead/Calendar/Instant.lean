import Letterhead.Calendar.Date

/-!
Instants: moments of one clock, counted in microseconds. Adding days can leave the years that the
calendar has, and then there is no such instant.
-/

namespace Letterhead

structure Instant where
  micros : Int
deriving DecidableEq, Repr

namespace Instant

def microsPerDay : Int := 86400 * 1000000

def last : Instant := ⟨(Date.toDays ⟨9999, 12, 31⟩ + 1) * microsPerDay - 1⟩

def before (a b : Instant) : Bool := a.micros < b.micros

/-- A limit has passed at every moment strictly after it; where there is no limit, none has. -/
def hasPassed (limit : Option Instant) (now : Instant) : Bool := limit.any fun l => l.before now

def date (i : Instant) : Date := Date.ofDays (i.micros / microsPerDay)

def addDays? (i : Instant) (days : Nat) : Option Instant :=
  let r : Instant := ⟨i.micros + days * microsPerDay⟩
  if last.before r then none else some r

def millis (i : Instant) : Int := i.micros / 1000

def text (i : Instant) : Text :=
  let t := (i.micros % microsPerDay).toNat
  let seconds := t / 1000000
  let fraction := t % 1000000
  i.date.text ++ 'T' :: padded 2 (seconds / 3600) ++ ':' :: padded 2 (seconds / 60 % 60) ++
    ':' :: padded 2 (seconds % 60) ++ (if fraction = 0 then [] else '.' :: padded 6 fraction)

def fractionMicros? (digits : Text) : Option Nat :=
  Numeral.digits? (digits.take 6 ++ List.replicate (6 - digits.length) '0')

def timeMicros? (t : Text) : Option Nat :=
  let p := Text.cutAt '.' t
  let fraction := if p.2.isEmpty then some 0 else fractionMicros? p.2
  match (p.1.splitOn ':').mapM Numeral.digits?, fraction with
  | some [h, m], some f => some ((h * 3600 + m * 60) * 1000000 + f)
  | some [h, m, s], some f => some ((h * 3600 + m * 60 + s) * 1000000 + f)
  | _, _ => none

def ofText? (t : Text) : Option Instant :=
  match Date.ofText? (t.take 10), t.drop 10 with
  | some d, [] => some ⟨d.toDays * microsPerDay⟩
  | some d, _ :: time => (timeMicros? time).map fun n => ⟨d.toDays * microsPerDay + n⟩
  | none, _ => none

@[simp] theorem before_irrefl (a : Instant) : before a a = false := by
  simp [before]

theorem hasPassed_iff {limit : Option Instant} {now : Instant} :
    hasPassed limit now ↔ ∃ l, limit = some l ∧ l.micros < now.micros := by
  cases limit <;> simp [hasPassed, before]

end Instant
end Letterhead
