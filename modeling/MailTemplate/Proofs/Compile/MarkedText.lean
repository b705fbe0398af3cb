import MailTemplate.Proofs.Compile.Escaping
import MailTemplate.Proofs.Template.Markers

/-!
# Marked text in a block

Any text can be written from within a block: its lines are marked, and every `@` in them is doubled. Only a line of
code that ends in the middle of an expression takes a marked line away (`Reader.isInnerText_marked_iff`), and nothing
in the text reaches the braces of the block (`Reader.marked_text`).
-/

namespace MailTemplate.Reader

open Text

/-- A line within a block that is marked as text, with the text escaped. -/
def marked (indent content : List Char) : List Char := indent ++ '@' :: ':' :: escapeChars content

section Marked

variable {r : Reader} {b : OpenBlock} {indent : List Char}

theorem trimStart_marked (hindent : allBlank indent = true) (content : List Char) :
    trimStart (marked indent content) = '@' :: ':' :: escapeChars content := by
  rw [marked, trimStart_marker, trimStart_eq_nil_iff.2 hindent, List.nil_append]

/-- A marked line is no text where the line of code before it goes on. The marker itself is no operator, so it does
not matter whether the statement before the line has an end. -/
theorem isInnerText_marked_iff (hindent : allBlank indent = true) (content : List Char) :
    IsInnerText b (marked indent content) ↔ b.continued = false := by
  have hstart := trimStart_marked hindent content
  have hoperator : leadsWithOperator (trim (marked indent content)) = false := by
    rw [trim_of_trimStart hstart]
    exact leadsWithOperator_marker [] _ []
  constructor
  · rintro ⟨_, hbegins, _⟩
    exact (Bool.or_eq_false_iff.1 hbegins).1
  · intro hb
    refine ⟨?_, by rw [hb, hoperator, Bool.and_false]; rfl, .inl ⟨_, hstart⟩⟩
    rw [← Bool.not_eq_true, ← trimStart_eq_nil_iff, hstart]
    exact List.cons_ne_nil _ _

theorem step_marked (hr : r.current = some b) (hb : b.continued = false) (hindent : allBlank indent = true)
    (number : Nat) (content : List Char) :
    r.step number (marked indent content) =
      .ok (some (.text number (literalFragments content) (some b.index)), r) := by
  rw [step_text_iff, TakesText, hr]
  refine ⟨(isInnerText_marked_iff hindent content).2 hb, rfl, rfl, ?_, rfl⟩
  rw [textOf_marked (trimStart_marked hindent content)]
  exact Fragment.ofLine_escapeChars content

/-- Lines with their indentation, as text lines of a block. -/
def markedLines (block number : Nat) (lines : List (List Char × List Char)) : List Line :=
  (lines.zipIdx number).map fun (line, n) => .text n (literalFragments line.2) (some block)

theorem run_marked (hr : r.current = some b) (hb : b.continued = false) {lines : List (List Char × List Char)}
    (hindents : ∀ line ∈ lines, allBlank line.1 = true) (number : Nat) :
    r.run number (lines.map fun line => marked line.1 line.2) = .ok (markedLines b.index number lines, r) := by
  induction lines generalizing number with
  | nil => rfl
  | cons line lines ih =>
      obtain ⟨hindent, hmore⟩ := List.forall_mem_cons.1 hindents
      exact run_cons_eq_ok_iff.2 ⟨_, _, _, step_marked hr hb hindent number line.2, ih hmore _, rfl⟩

/-- Where no line of code goes on, a marked line is a text line whose only literal is the text, and the block stays as
it is, also behind any number of such lines. -/
theorem marked_text (hr : r.current = some b) (hb : b.continued = false) (number : Nat) :
    (∀ indent content, allBlank indent = true → r.step number (marked indent content) =
      .ok (some (.text number (literalFragments content) (some b.index)), r)) ∧
    ∀ lines, (∀ line ∈ lines, allBlank line.1 = true) →
      r.run number (lines.map fun line => marked line.1 line.2) = .ok (markedLines b.index number lines, r) :=
  ⟨fun _ content hindent => step_marked hr hb hindent number content,
    fun _ hindents => run_marked hr hb hindents number⟩

/-- A reader in a block with one more brace open, behind a statement without an end. -/
def behindStatement : Reader := ⟨1, some ⟨2, 1, 0, false, true⟩⟩

/-- Text that closes braces, opens a string and looks like code, and lines without text and with an `@`. -/
theorem marked_text_pending :
    behindStatement.step 4 "\t @:\x7d \" if (x) += @@y // ".toList =
        .ok (some (.text 4 [.literal "\x7d \" if (x) += @y // "] (some 0)), behindStatement) ∧
      behindStatement.run 4 ["@:".toList, " @:\x7b@@".toList] =
        .ok ([.text 4 [] (some 0), .text 5 [.literal "\x7b@"] (some 0)], behindStatement) := by
  obtain ⟨hstep, hrun⟩ := marked_text (r := behindStatement) rfl rfl 4
  exact ⟨hstep "\t ".toList "\x7d \" if (x) += @y // ".toList (by decide),
    hrun [([], []), ([' '], ['\x7b', '@'])] (by decide)⟩

end Marked

end MailTemplate.Reader
