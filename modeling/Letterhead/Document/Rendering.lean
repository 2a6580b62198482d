import Letterhead.Digest.Sha256
import Letterhead.Page.Print
import Letterhead.Word.Document

/-!
Rendered documents: bytes, and the number of pages where it is known. Archives and page descriptions
are made by libraries. What stands here for the bytes of such a library is the mark that its files
start with and a digest of the parts that it is given.
-/

namespace Letterhead

structure Rendering where
  bytes : ByteArray
  pages : Option Nat := none

namespace Rendering

def ofText (t : Text) : Rendering := { bytes := Text.utf8 t }

def archiveMark : List UInt8 := [0x50, 0x4B, 0x03, 0x04]

def pagesMark : List UInt8 := [0x25, 0x50, 0x44, 0x46]

/-- A mark and the digest of parts, each with its length in front. -/
def sealed (mark : List UInt8) (parts : List Text) : ByteArray :=
  let whole := parts.flatMap fun p => natText p.length ++ ':' :: p
  Bytes.ofList (mark ++ Sha256.digest (Text.utf8 whole))

def wordParts (d : Word.Document) : List Text :=
  d.styles.map (fun s => s.2.write) ++ d.properties.all ++
    d.header.toList.map (fun p => p.xml.write) ++
    (d.footer.getD []).map (fun p => p.xml.write) ++ d.body.map fun e => e.xml.write

def archive (d : Word.Document) : ByteArray := sealed archiveMark (wordParts d)

def printed (j : Page.PrintJob) (information : List (String × Text)) (pages : Nat) : ByteArray :=
  sealed pagesMark ([j.sheet, j.header, j.footer, natText pages] ++ information.map Prod.snd)

end Rendering
end Letterhead
