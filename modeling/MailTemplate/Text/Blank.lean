/-!
# Blank characters

The characters with the Unicode property `White_Space`, and trimming text of them. Trimming takes
blanks only, and leaves a text that neither starts nor ends with one.
-/

namespace MailTemplate.Text

/-- Whether the character has the Unicode property `White_Space`. -/
def isBlank (c : Char) : Bool :=
  let n := c.toNat
  (9 ≤ n && n ≤ 13) || n == 0x20 || n == 0x85 || n == 0xA0 || n == 0x1680
    || (0x2000 ≤ n && n ≤ 0x200A) || n == 0x2028 || n == 0x2029 || n == 0x202F || n == 0x205F
    || n == 0x3000

def allBlank (cs : List Char) : Bool := cs.all isBlank

def leadingBlanks (cs : List Char) : List Char := cs.takeWhile isBlank

def trimStart (cs : List Char) : List Char := cs.dropWhile isBlank

def trimEnd (cs : List Char) : List Char := (cs.reverse.dropWhile isBlank).reverse

def trim (cs : List Char) : List Char := trimEnd (trimStart cs)

theorem leadingBlanks_append_trimStart (cs : List Char) : leadingBlanks cs ++ trimStart cs = cs :=
  List.takeWhile_append_dropWhile

theorem isBlank_of_mem_leadingBlanks {c : Char} {cs : List Char} (h : c ∈ leadingBlanks cs) :
    isBlank c := by
  induction cs with
  | nil => simp [leadingBlanks] at h
  | cons d ds ih =>
      by_cases hd : isBlank d
      · simp only [leadingBlanks, List.takeWhile_cons, hd, if_true, List.mem_cons] at h ih
        rcases h with rfl | h
        · exact hd
        · exact ih h
      · simp [leadingBlanks, hd] at h

end MailTemplate.Text
