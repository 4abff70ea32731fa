import LittleMan.Proofs.Assembly.Agreement

/-!
# The canonical form of a source

A source is printed by writing the texts of its statements, one a line. What is printed is read back
as the same statements without their extra words, so printing it again changes nothing, and it is
assembled like the source (`print_lossless`).
-/

namespace LittleMan.Assembly

open Statement

variable {s : Statement}

/-- The statements of a source, each on a line of its own. -/
def print (source : Text) : Text := Text.join ['\n'] ((ofSource source).map Statement.text)

theorem print_eq_written (source : Text) :
    print source = Source.written (((ofSource source).map form).map Form.words) := by
  rw [print, Source.written, List.map_map, List.map_map]
  rfl

/-- A readable form on one line is read back as one statement. -/
theorem exists_ofSource_writtenLine {f : Form} (readable : f.Readable) :
    ∃ t, ofSource (Source.writtenLine f.words) = [t] ∧ t.form = f ∧ t.extra = [] := by
  have alone : ∀ g ∈ [f], g.Readable := by simpa using readable
  obtain ⟨read, bare⟩ := forms_ofSource_written alone
  have line : Source.written ([f].map Form.words) = Source.writtenLine f.words := rfl
  rw [line] at read bare
  obtain ⟨t, one, said⟩ := List.map_eq_singleton_iff.1 read
  exact ⟨t, one, said, bare t (by simp [one])⟩

theorem readable_forms (source : Text) : ∀ f ∈ (ofSource source).map form, f.Readable := by
  intro f member
  obtain ⟨s, stands, rfl⟩ := List.mem_map.1 member
  exact readable_form stands

theorem forms_print (source : Text) :
    (ofSource (print source)).map form = (ofSource source).map form := by
  rw [print_eq_written]
  exact (forms_ofSource_written (readable_forms source)).1

theorem extra_print (source : Text) : ∀ s ∈ ofSource (print source), s.extra = [] := by
  rw [print_eq_written]
  exact (forms_ofSource_written (readable_forms source)).2

theorem print_print (source : Text) : print (print source) = print source := by
  rw [print_eq_written (print source), forms_print, ← print_eq_written]

/-- What is printed of a statement is read as one statement that says the same, and what is printed
of a source as statements that say the same in the same order. Printing again changes nothing, and
the printed source is assembled like the source. -/
theorem print_lossless (source : Text) :
    (∀ s ∈ ofSource source, ∃ t, ofSource s.text = [t] ∧ t.form = s.form ∧ t.extra = []) ∧
    ((ofSource (print source)).map form = (ofSource source).map form ∧
      ∀ s ∈ ofSource (print source), s.extra = []) ∧
    print (print source) = print source ∧
    ∀ options, Agree (assemble options (print source)).result (assemble options source).result := by
  refine ⟨fun s member => ?_, ⟨forms_print source, extra_print source⟩, print_print source,
    fun options => agree_of_forms options (forms_print source)⟩
  rw [text_eq_writtenLine]
  exact exists_ofSource_writtenLine (readable_form member)

/-- Words after the operand, mnemonics not in upper case, and words that look like comments. -/
def crowdedSource : Text := " x//y lDa x//y z // z
ſta /x 7 8
 add
".toList

theorem print_lossless_crowded :
    ∃ s ∈ ofSource crowdedSource, s.extra ≠ [] ∧
      ∃ t, ofSource s.text = [t] ∧ t.form = s.form ∧ t.extra = [] := by
  have second : (ofSource crowdedSource)[0]? = some ⟨some ⟨"x//y".toList, 1⟩, ⟨"lDa".toList, 6⟩,
      some ⟨"x//y".toList, 10⟩, [⟨"z".toList, 15⟩]⟩ := by decide +kernel
  have member := List.mem_of_getElem? second
  exact ⟨_, member, by simp, (print_lossless crowdedSource).1 _ member⟩

end LittleMan.Assembly
