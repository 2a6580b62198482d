/-!
Text as the library reads and writes it: a list of characters. Lengths, cuts and columns therefore
count code points, and every rule about text is a rule about lists.
-/

namespace Letterhead

abbrev Text := List Char

namespace Text

def utf8 (t : Text) : ByteArray := (String.ofList t).toUTF8

def ofUtf8? (b : ByteArray) : Option Text := (String.fromUTF8? b).map String.toList

def after? (start t : Text) : Option Text := start.isPrefixOf? t

def startsWith (t start : Text) : Bool := start.isPrefixOf t

def endsWith (t ending : Text) : Bool := ending.isSuffixOf t

def cutAt (c : Char) (t : Text) : Text × Text :=
  (t.takeWhile (· != c), (t.dropWhile (· != c)).drop 1)

def holds (t part : Text) : Bool :=
  part.isPrefixOf t ||
    match t with
    | [] => false
    | _ :: rest => holds rest part

def times (t : Text) (n : Nat) : Text := (List.replicate n t).flatten

def le (a b : Text) : Bool :=
  match a, b with
  | [], _ => true
  | _ :: _, [] => false
  | x :: xs, y :: ys => x < y || (x == y && le xs ys)

end Text
end Letterhead
