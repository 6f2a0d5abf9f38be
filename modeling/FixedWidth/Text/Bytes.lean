/-!
# Text/Bytes — the size of a text in UTF-8

Offsets that a reader reports count bytes, while fields count characters. `byteLength` joins the
two, and `byteLength_append` lets offsets be added up piece by piece.
-/

namespace FixedWidth.Text

/-- The number of bytes of a text in UTF-8. -/
def byteLength (cs : List Char) : Nat := cs.foldl (fun size c => size + c.utf8Size) 0

theorem foldl_utf8Size (cs : List Char) (size : Nat) :
    cs.foldl (fun size c => size + c.utf8Size) size = size + byteLength cs := by
  induction cs generalizing size with
  | nil => rfl
  | cons c cs ih =>
    rw [byteLength, List.foldl_cons, List.foldl_cons, ih, ih, Nat.zero_add, Nat.add_assoc]

@[simp]
theorem byteLength_nil : byteLength [] = 0 := rfl

@[simp]
theorem byteLength_cons (c : Char) (cs : List Char) :
    byteLength (c :: cs) = c.utf8Size + byteLength cs := by
  rw [byteLength, List.foldl_cons, foldl_utf8Size, Nat.zero_add]

@[simp]
theorem byteLength_append (a b : List Char) :
    byteLength (a ++ b) = byteLength a + byteLength b := by
  rw [byteLength, List.foldl_append, foldl_utf8Size, ← byteLength]

end FixedWidth.Text
