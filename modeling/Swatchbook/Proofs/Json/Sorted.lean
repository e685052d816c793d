import Swatchbook.Json.Value

/-! Values in which the members of every object stand in order, and so each under a key
of its own. -/
namespace Swatchbook.Json

inductive IsSorted : Json → Prop where
  | null : IsSorted .null
  | bool (b : Bool) : IsSorted (.bool b)
  | number (n : Numeral) : IsSorted (.number n)
  | text (s : String) : IsSorted (.text s)
  | array {items : List Json} (h : ∀ v ∈ items, IsSorted v) : IsSorted (.array items)
  | object {members : List (String × Json)} (hkeys : Increasing members)
      (h : ∀ m ∈ members, IsSorted m.2) : IsSorted (.object members)

theorem increasing_sortedMembers (members : List (String × Json)) :
    Increasing (sortedMembers members) := by
  induction members with
  | nil => exact .nil
  | cons m rest ih =>
      rw [sortedMembers]
      split
      · exact ih
      · exact ih.insertEntry m.1 m.2.sorted

mutual

theorem isSorted_sorted : (v : Json) → IsSorted v.sorted
  | .null => .null
  | .bool b => .bool b
  | .number n => .number n
  | .text s => .text s
  | .array items => .array (isSorted_of_mem_sortedItems items)
  | .object members => .object (increasing_sortedMembers members)
      (isSorted_of_mem_sortedMembers members)

theorem isSorted_of_mem_sortedItems : (items : List Json) → ∀ v ∈ sortedItems items, IsSorted v
  | [] => nofun
  | v :: rest => List.forall_mem_cons.2 ⟨isSorted_sorted v, isSorted_of_mem_sortedItems rest⟩

theorem isSorted_of_mem_sortedMembers : (members : List (String × Json)) →
    ∀ m ∈ sortedMembers members, IsSorted m.2
  | [] => nofun
  | (k, v) :: rest => by
      have hrest := isSorted_of_mem_sortedMembers rest
      intro m hm
      rw [sortedMembers] at hm
      split at hm
      · exact hrest m hm
      · rcases fst_of_mem_insertEntry hm with rfl | hm
        · exact isSorted_sorted v
        · exact hrest m hm

end

end Swatchbook.Json
