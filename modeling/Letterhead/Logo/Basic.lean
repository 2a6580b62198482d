import Letterhead.Logo.Base64

/-!
Logos that are ready to be shown: the bytes of a picture and its size.
-/

namespace Letterhead

structure Logo where
  bytes : ByteArray
  width : Int
  height : Int
  kind : Text := "png".toList

def Logo.address (l : Logo) : Text :=
  "data:image/".toList ++ l.kind ++ ";base64,".toList ++ Base64.encode l.bytes

end Letterhead
