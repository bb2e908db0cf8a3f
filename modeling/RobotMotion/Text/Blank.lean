/-!
# Blank characters

The characters that count as blank in names, pins and frames: those with the
Unicode property White_Space. The zero-width space is not among them.
-/

namespace RobotMotion.Text

/-- Whether a character is blank. -/
def isBlank (c : Char) : Bool :=
  let n := c.toNat
  (0x9 ≤ n && n ≤ 0xD) || n = 0x20 || n = 0x85 || n = 0xA0 || n = 0x1680
    || (0x2000 ≤ n && n ≤ 0x200A) || n = 0x2028 || n = 0x2029 || n = 0x202F
    || n = 0x205F || n = 0x3000

/-- Blanks removed from both ends. -/
def trimmed (s : List Char) : List Char :=
  ((s.dropWhile isBlank).reverse.dropWhile isBlank).reverse

/-- The first word of a text: what stands between the leading blanks and the
next blank. Empty when the text is blank. -/
def firstWord (s : List Char) : List Char := (s.dropWhile isBlank).takeWhile (!isBlank ·)

/-- The blanks that the core library knows are among them. -/
theorem isBlank_of_isWhitespace (c : Char) (h : c.isWhitespace = true) : isBlank c = true := by
  simp only [Char.isWhitespace, Bool.or_eq_true, decide_eq_true_eq] at h
  rcases h with ((h | h) | h) | h <;> subst h <;> rfl

end RobotMotion.Text
