/-!
# Words of a text

The pieces of a text between its blanks. Texts that are put together with a blank in between have
the words of both (`words_append`).
-/

namespace Chip8

/-- The pieces of a text between its blanks, of which some may be empty. -/
def words (text : String) : List String :=
  (text.toList.splitOn ' ').map String.ofList

theorem words_append (s t : String) : words (s ++ (" " ++ t)) = words s ++ words t := by
  have hlist : (s ++ (" " ++ t)).toList = s.toList ++ ' ' :: t.toList := by
    simp only [String.toList_append]
    rfl
  rw [words, hlist, List.splitOn_append_cons_self, List.map_append, ← words, ← words]

/-- A text without blanks is a word. -/
theorem words_of_not_mem {text : String} (h : ' ' ∉ text.toList) : words text = [text] := by
  rw [words, List.splitOn_eq_singleton h, List.map_singleton, String.ofList_toList]

theorem words_append_of_not_mem {s t : String} (hs : ' ' ∉ s.toList) (ht : ' ' ∉ t.toList) :
    words (s ++ t) = [s ++ t] := by
  refine words_of_not_mem ?_
  rw [String.toList_append, List.mem_append, not_or]
  exact ⟨hs, ht⟩

end Chip8
