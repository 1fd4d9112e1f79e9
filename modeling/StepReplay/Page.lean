import StepReplay.Form

set_option autoImplicit false

/-! # Memory pages

A page is 4096 bytes of memory. What they mean is not looked at. -/

namespace StepReplay

/-- A page of memory. -/
abbrev Page := Block 4096

/-- How a page describes itself: by its first eight bytes. -/
def Page.description (p : Page) : Text :=
  "Page(" ++ Hex.encode (p.bytes.take 8) ++ "...)"

end StepReplay
