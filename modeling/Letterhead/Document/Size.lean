import Letterhead.Failure

/-!
Sizes of documents in megabytes of `2 ^ 20` bytes.
-/

namespace Letterhead.Size

def bytesPerMegabyte : Nat := 1048576

/-- A number of bytes in megabytes; sizes beyond every floating point number overflow. -/
def megabytes (bytes : Int) : Except Failure Binary64 :=
  match Binary64.ofRatio (bytes < 0) bytes.natAbs bytesPerMegabyte with
  | .infinite _ => .error .overflow
  | x => .ok x

def text (x : Binary64) (places : Nat) : Text := x.fixed places true ++ " MB".toList

end Letterhead.Size
