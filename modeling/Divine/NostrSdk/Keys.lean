/-
This file gives the check of keys.
-/

namespace Divine.NostrSdk

def keyIsValid (isHexadecimal : String → Bool) (key : String) : Bool :=
  isHexadecimal key && key.length = 64

end Divine.NostrSdk
