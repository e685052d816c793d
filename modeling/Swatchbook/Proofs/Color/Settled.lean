import Swatchbook.Proofs.Color.Encoding
import Swatchbook.Proofs.Source.Names

/-! The normal form of any text, color or not. Behind its number sign stands nothing that
normalizing would take off, turn into upper case or double, so it is its own normal form. Of
valid colors with as many digits, those with one normal form are packed as one word. -/
namespace Swatchbook.Hex

/-- What stands behind the number sign of a normal form: no other number sign comes first, no
letter is small, and the text is not of the three bytes that would be doubled. -/
structure Settled (ds : List Char) : Prop where
  head : ds.head? ≠ some '#'
  upper : ∀ c ∈ ds, c.toUpper = c
  size : byteCount ds ≠ 3

theorem Settled.normalize_eq {ds : List Char} (h : Settled ds) :
    normalize (String.ofList ('#' :: ds)) = String.ofList ('#' :: ds) := by
  have hdrop : ('#' :: ds).dropWhile (· == '#') = ds := by
    rw [List.dropWhile_cons_of_pos (by rfl)]
    cases ds with
    | nil => rfl
    | cons c r => exact List.dropWhile_cons_of_neg fun hc => h.head (by simpa using hc)
  have hupper : ds.map Char.toUpper = ds := (List.map_congr_left h.upper).trans (List.map_id' ds)
  unfold normalize
  simp only [String.toList_ofList, hdrop, hupper, if_neg h.size]

theorem byteCount_double (s : List Char) : byteCount (double s) = 2 * byteCount s := by
  induction s with
  | nil => rfl
  | cons c r ih =>
      change c.utf8Size + (c.utf8Size + byteCount (double r)) = 2 * (c.utf8Size + byteCount r)
      rw [ih]
      omega

theorem head?_double (s : List Char) : (double s).head? = s.head? := by
  cases s <;> rfl

theorem Settled.double {ds : List Char} (hhead : ds.head? ≠ some '#')
    (hupper : ∀ c ∈ ds, c.toUpper = c) (hsize : byteCount ds = 3) : Settled (double ds) where
  head := head?_double ds ▸ hhead
  upper c hc := hupper c (mem_double hc)
  size := by
    rw [byteCount_double, hsize]
    decide

end Swatchbook.Hex
