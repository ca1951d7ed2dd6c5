/-!
# Blank characters

Blank characters are those with the Unicode property `White_Space`.  Trimming
removes them from both ends of a text and leaves the inside alone.
-/

namespace Vigil.Text

/-- The characters with the property `White_Space`: twenty-five code points in
ten runs. -/
def isBlank (c : Char) : Bool :=
  let n := c.toNat
  (0x09 ≤ n && n ≤ 0x0D) || n == 0x20 || n == 0x85 || n == 0xA0 || n == 0x1680 ||
    (0x2000 ≤ n && n ≤ 0x200A) || n == 0x2028 || n == 0x2029 || n == 0x202F ||
      n == 0x205F || n == 0x3000

def trim (cs : List Char) : List Char :=
  ((cs.dropWhile isBlank).reverse.dropWhile isBlank).reverse

/-- A text without a single visible character. -/
def isAllBlank (s : String) : Bool :=
  s.toList.all isBlank

theorem isAllBlank_eq_true_iff (s : String) :
    isAllBlank s = true ↔ ∀ c ∈ s.toList, isBlank c = true := by
  rw [isAllBlank, List.all_eq_true]

theorem dropWhile_isBlank_eq_nil_iff (cs : List Char) :
    cs.dropWhile isBlank = [] ↔ cs.all isBlank = true := by
  induction cs with
  | nil => simp
  | cons c cs ih => by_cases h : isBlank c = true <;> simp [h, ih]

theorem trim_eq_nil_iff (cs : List Char) : trim cs = [] ↔ cs.all isBlank = true := by
  rw [trim, List.reverse_eq_nil_iff, dropWhile_isBlank_eq_nil_iff, List.all_reverse,
    ← dropWhile_isBlank_eq_nil_iff cs]
  cases h : cs.dropWhile isBlank with
  | nil => simp
  | cons c ds =>
      have hc : isBlank c = false := by
        simpa [h] using List.head?_dropWhile_not isBlank cs
      simp [hc]

end Vigil.Text
