import Letterhead.Text.Blank
import Letterhead.Text.Digit
import Letterhead.Text.Letter

/-!
Lines and their classes. A line ends at a line feed, a carriage return, or the two together. Every
class is a test on one line; which test comes first is up to the scan.
-/

namespace Letterhead

namespace Text

/-- Puts one character in front of a text whose line breaks are line feeds. The second component
tells whether the character written after it was a line feed. -/
def prependBreak (c : Char) (rest : Text × Bool) : Text × Bool :=
  if c = '\r' then (if rest.2 then rest.1 else '\n' :: rest.1, false)
  else (c :: rest.1, c = '\n')

def normalizeBreaks (t : Text) : Text := (t.foldr prependBreak ([], false)).1

def lines (t : Text) : List Text := t.normalizeBreaks.splitOn '\n'

end Text

namespace Line

def fenceMark : Text := ['\x60', '\x60', '\x60']

def isFence (line : Text) : Bool := line.startsWith fenceMark

def indent (line : Text) : Nat := (line.takeWhile (· == ' ')).length

def diagramIndent : Nat := 4

def boxChars : Text := "+|─━│┃┌┐└┘├┤┬┴┼═║╔╗╚╝╠╣╦╩╬".toList

def isFramed (left right : Text) (inside : Char → Bool) (t : Text) : Bool :=
  match t with
  | [] => false
  | c :: rest =>
    match rest.getLast? with
    | none => false
    | some d => left.contains c && right.contains d && rest.dropLast.all inside

def isBorder (t : Text) : Bool :=
  isFramed "+┌└├╔╚╠".toList "+┐┘┤╗╝╣".toList "-=+─━═┬┴┼╦╩╬".toList.contains t

def isWalled (t : Text) : Bool :=
  isFramed "|│║".toList "|│║".toList (· != '\n') t

def isSlanted (t : Text) : Bool :=
  isFramed ['/'] ['\\'] (· != '\n') t || isFramed ['\\'] ['/'] (· != '\n') t

def hasPair (a b : Char) : Text → Bool
  | c :: d :: rest => (c == a && d == b) || hasPair a b (d :: rest)
  | _ => false

def hasArrow (t : Text) : Bool :=
  hasPair '-' '>' t || hasPair '<' '-' t || hasPair '=' '>' t || hasPair '<' '=' t ||
    t.any "→←↑↓↔⇒⇐⇑⇓▶◀▲▼".toList.contains

def isConnector (t : Text) : Bool := !t.isEmpty && t.all "|│v^".toList.contains

def hasBrackets (t : Text) : Bool :=
  (t.dropWhile (· != '[')).contains ']' || (t.dropWhile (· != '(')).contains ')'

def isBranchLabel (t : Text) : Bool :=
  Text.sameLetters "yes".toList t || Text.sameLetters "no".toList t

/-- Content that looks drawn: a border, a wall, corners and bars, an arrow, a connector, slanted
sides, a bracketed label beside a box character, or the answer at a branch. -/
def looksDrawn (t : Text) : Bool :=
  isBorder t || isWalled t || 2 ≤ t.countP (fun c => c == '+' || c == '|') || hasArrow t ||
    isConnector t || isSlanted t || (hasBrackets t && t.any boxChars.contains) || isBranchLabel t

def isDiagram (line : Text) : Bool :=
  diagramIndent ≤ indent line && !line.trim.isEmpty && looksDrawn line.trim

def isRow (line : Text) : Bool :=
  line.trim.head? == some '|' && line.trim.getLast? == some '|' && 2 ≤ line.trim.count '|'

def isRuleChar (c : Char) : Bool := isBlank c || c == '|' || c == ':' || c == '-'

/-- Separator lines hold dashes and nothing but bars, colons and blanks beside them. -/
def isSeparator (line : Text) : Bool := line.trim.contains '-' && line.trim.all isRuleChar

def cells (line : Text) : List Text :=
  (((line.trim.drop 1).dropLast).splitOn '|').map Text.trim

def heading? (line : Text) : Option (Nat × Text) :=
  let level := (line.takeWhile (· == '#')).length
  match line.drop level with
  | ' ' :: rest => if 1 ≤ level && level ≤ 3 then some (level, rest) else none
  | _ => none

def bullet? : Text → Option Text
  | '-' :: ' ' :: rest => some rest
  | '*' :: ' ' :: rest => some rest
  | _ => none

def numbered? (line : Text) : Option Text :=
  match line.dropWhile isDecimal with
  | '.' :: c :: rest =>
    if isBlank c && (line.head?.map isDecimal).getD false then some rest else none
  | _ => none

@[simp] theorem heading?_nil : heading? [] = none := rfl

@[simp] theorem bullet?_nil : bullet? [] = none := rfl

@[simp] theorem numbered?_nil : numbered? [] = none := rfl

end Line
end Letterhead
