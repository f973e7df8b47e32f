/-!
# Texts by their UTF-8 bytes

Names are hashed, written and sorted by their UTF-8 form.

* `Text.bytes` is that form as a list.
* `Text.compareBytes` compares two texts by it, `Text.sortBytes` sorts a list of texts.
-/

namespace ModifierFacts.Text

/-- The UTF-8 bytes of a text. -/
def bytes (s : String) : List UInt8 := s.toUTF8.toList

/-- Lexicographic comparison of byte strings; a proper beginning comes first. -/
def compareLists : List UInt8 → List UInt8 → Ordering
  | [], [] => .eq
  | [], _ :: _ => .lt
  | _ :: _, [] => .gt
  | a :: as, b :: bs => if a < b then .lt else if b < a then .gt else compareLists as bs

/-- Comparison of texts by their bytes. -/
def compareBytes (s t : String) : Ordering := compareLists (bytes s) (bytes t)

/-- The order of `compareBytes` as a test. -/
def atMost (s t : String) : Bool := compareBytes s t != .gt

/-- The texts in byte order; equal texts stay. -/
def sortBytes (texts : List String) : List String := texts.mergeSort atMost

end ModifierFacts.Text
