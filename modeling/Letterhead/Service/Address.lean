import Letterhead.Bytes
import Letterhead.Text.Digit
import Letterhead.Text.Octets

/-!
Addresses of the service. The path of an address ends where its query or its fragment begins; single
and double points in it are followed, and bytes written as a percent sign and two digits are read.
-/

namespace Letterhead.Service.Address

def withoutQuery (t : Text) : Text := t.takeWhile fun c => c != '?' && c != '#'

/-- The parts of a path that are left when single and double points are followed. -/
def followPoints (parts : List Text) : List Text :=
  (parts.foldl (fun done p =>
    if p = ['.'] then done
    else if p = ['.', '.'] then
      if done = [] || done = [[]] then done else done.drop 1
    else p :: done) []).reverse

/-- The bytes that a text with percent signs stands for. -/
def unescape : Text → List UInt8
  | '%' :: a :: b :: rest =>
    match hexDigit? a, hexDigit? b with
    | some x, some y => UInt8.ofNat (x * 16 + y) :: unescape rest
    | _, _ => Bytes.toList (Text.utf8 ['%']) ++ unescape (a :: b :: rest)
  | c :: rest => Bytes.toList (Text.utf8 [c]) ++ unescape rest
  | [] => []
termination_by t => t.length

def path (t : Text) : Text :=
  let p := '/' :: (withoutQuery t).dropWhile (· == '/')
  Octets.read (unescape (['/'].intercalate (followPoints (p.splitOn '/'))))

def withoutSlashes (t : Text) : Text := (t.reverse.dropWhile (· == '/')).reverse

def parts (path : Text) : List Text := (path.splitOn '/').drop 1

end Letterhead.Service.Address
