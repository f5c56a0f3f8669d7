/-
  This file defines blank characters, which are those with the
  Unicode property White_Space, and trimming.

  Key definitions include:
    * `Text.isBlank`
    * `Text.trim`

  Key theorems include:
    * `Text.trim_eq_self`
-/

namespace CoreTally.Text

/- A character with the Unicode property White_Space. -/
def isBlank (c : Char) : Bool :=
  let n := c.toNat
  (9 ≤ n && n ≤ 13) || n == 0x20 || n == 0x85 || n == 0xA0 ||
    n == 0x1680 || (0x2000 ≤ n && n ≤ 0x200A) || n == 0x2028 ||
    n == 0x2029 || n == 0x202F || n == 0x205F || n == 0x3000

/- Drop the blanks at both ends. -/
def trim (text : List Char) : List Char :=
  ((text.dropWhile isBlank).reverse.dropWhile isBlank).reverse

/- A text that does not begin with a blank loses none. -/
theorem dropWhile_isBlank_eq_self
    {text : List Char}
    (hText : ∀ c ∈ text.head?, isBlank c = false) :
    text.dropWhile isBlank = text := by
  cases text with
  | nil => rfl
  | cons c text => simp [hText c rfl]

/- A text without blanks is left as it is. -/
theorem trim_eq_self
    {text : List Char}
    (hText : ∀ c ∈ text, isBlank c = false) :
    trim text = text := by
  have hLast : ∀ c ∈ text.reverse.head?, isBlank c = false := by
    intro c hHead
    exact hText c (List.mem_reverse.mp (List.mem_of_mem_head? hHead))
  have hFirst : ∀ c ∈ text.head?, isBlank c = false :=
    fun c hHead => hText c (List.mem_of_mem_head? hHead)
  rw [trim, dropWhile_isBlank_eq_self hFirst,
    dropWhile_isBlank_eq_self hLast, List.reverse_reverse]

end CoreTally.Text
