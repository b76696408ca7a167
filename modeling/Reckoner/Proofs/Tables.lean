import Mathlib.Data.List.Basic
import Reckoner.Csv.Reader
import Reckoner.Csv.Writer
/-!
# Tables read back

What is written as CSV is read again as it was. Inside a field the cutter stands in one of four ways
(`Cutter.Inside`), each character that needs no quotes keeps to them, and from all four the comma or line feed
behind the field ends it (`Inside.comma`, `Inside.feed`). Two fields are enough for a row not to be taken for a
blank line, so rows of that width are read one by one (`records_rows`), and a table with them is read whole
(`table_write`). A cell is shown up to its first NUL.
-/

namespace Reckoner.Csv

namespace Cutter

def run (r : Cutter) (cs : List Char) : Cutter := cs.foldl step r

@[simp] theorem run_nil (r : Cutter) : r.run [] = r := rfl

@[simp] theorem run_cons (r : Cutter) (c : Char) (cs : List Char) : r.run (c :: cs) = (r.step c).run cs := rfl

theorem run_append (r : Cutter) (as bs : List Char) : r.run (as ++ bs) = (r.run as).run bs := List.foldl_append

/-! ## Fields -/

/-- A field begins here: nothing of it has been read. -/
structure Begins (r : Cutter) : Prop where
  field : r.field = []
  place : r.place = .recordStart ∨ r.place = .fieldStart

/-- Where the cutter stands behind the characters `f` of a field that began at `r`. Held blanks are not in the
field until something follows them, and only at the start of a record. -/
inductive Inside (r : Cutter) : List Char → Cutter → Prop
  | nothing : Inside r [] r
  | held (f : List Char) (first : r.place = .recordStart) : Inside r f { r with place := .blank f.reverse }
  | unquoted (f : List Char) : Inside r f { r with place := .plain, field := f.reverse }
  | closed (f : List Char) : Inside r f { r with place := .quoteSeen, field := f.reverse }

section
variable {r r' : Cutter} {f : List Char} {c : Char}

theorem ne_of_not_needsQuotes (h : needsQuotes c = false) : c ≠ ',' ∧ c ≠ '"' ∧ c ≠ '\n' ∧ c ≠ '\r' := by
  simpa [needsQuotes, and_assoc] using h

theorem inField_of_not_needsQuotes (h : needsQuotes c = false) (r : Cutter) : r.inField c = r.push c := by
  obtain ⟨hcomma, -, hfeed, hreturn⟩ := ne_of_not_needsQuotes h
  simp [inField, hcomma, hfeed, hreturn]

/-- At the start of a field a character that needs no quotes is held as a blank or is the first in the field. -/
theorem Begins.step (hr : r.Begins) (hc : needsQuotes c = false) : Inside r [c] (r.step c) := by
  obtain ⟨-, hquote, hfeed, hreturn⟩ := ne_of_not_needsQuotes hc
  have hstart : r.atFieldStart c = { r with place := .plain, field := [c] } := by
    rw [atFieldStart, if_neg hquote, inField_of_not_needsQuotes hc, push, hr.field]
  rcases hr.place with hplace | hplace
  · simp only [Cutter.step, hplace, atRecordStart, if_neg hfeed, if_neg hreturn]
    split
    · exact .held [c] hplace
    · rw [hstart]
      exact .unquoted [c]
  · simp only [Cutter.step, hplace]
    rw [hstart]
    exact .unquoted [c]

theorem Inside.step (h : Inside r f r') (hr : r.Begins) (hc : needsQuotes c = false) :
    Inside r (f ++ [c]) (r'.step c) := by
  obtain ⟨-, hquote, hfeed, hreturn⟩ := ne_of_not_needsQuotes hc
  have hpush := inField_of_not_needsQuotes hc
  have hheld : r.place = .recordStart → Inside r (f ++ [c]) { r with place := .blank (c :: f.reverse) } := by
    simpa using Inside.held (f ++ [c])
  have hunquoted : Inside r (f ++ [c]) { r with place := .plain, field := c :: f.reverse } := by
    simpa using Inside.unquoted (f ++ [c])
  cases h with
  | nothing => exact hr.step hc
  | held f first =>
    simp only [Cutter.step, if_neg hfeed, if_neg hreturn]
    split
    · exact hheld first
    · rw [hpush]
      exact hunquoted
  | unquoted f =>
    simp only [Cutter.step, hpush]
    exact hunquoted
  | closed f =>
    -- behind its closing quote a field goes on without quotes
    simp only [Cutter.step, if_neg hquote, hpush]
    exact hunquoted

theorem Inside.run (h : Inside r f r') (hr : r.Begins) {cs : List Char} (hcs : cs.any needsQuotes = false) :
    Inside r (f ++ cs) (r'.run cs) := by
  induction cs generalizing f r' with
  | nil => simpa using h
  | cons c cs ih =>
    rw [List.any_cons, Bool.or_eq_false_iff] at hcs
    simpa using ih (h.step hr hcs.1) hcs.2

/-- Between quotes two quotes are read as one, and every other character as itself. -/
theorem run_doubled (hr : r.place = .quoted) (cs : List Char) :
    r.run (cs.flatMap fun c => if c = '"' then ['"', '"'] else [c]) = { r with field := cs.reverse ++ r.field } := by
  induction cs generalizing r with
  | nil => rfl
  | cons c cs ih =>
    have hstep : r.run (if c = '"' then ['"', '"'] else [c]) = { r with field := c :: r.field } := by
      split
      · next hc => simp [Cutter.step, hr, hc]
      · next hc => simp [Cutter.step, hr, hc]
    rw [List.flatMap_cons, run_append, hstep, ih]
    · simp
    · exact hr

theorem Begins.run_writeField (hr : r.Begins) (f : List Char) : Inside r f (r.run (writeField f)) := by
  rw [writeField]
  split
  · have hopen : r.step '"' = { r with place := .quoted } := by
      rcases hr.place with hplace | hplace <;> simp [Cutter.step, hplace, atRecordStart, atFieldStart]
    rw [run_cons, hopen, run_append, run_doubled rfl, hr.field, List.append_nil]
    exact .closed f
  · next hplain => exact Inside.nothing.run hr (by simpa using hplain)

/-! ## Rows -/

/-- The comma behind a field ends it. -/
theorem Inside.comma (h : Inside r f r') (hr : r.Begins) :
    r'.step ',' = { r with place := .fieldStart, fields := f :: r.fields } := by
  have hfield := hr.field
  cases h with
  | nothing =>
    rcases hr.place with hplace | hplace <;>
      simp [Cutter.step, hplace, atRecordStart, atFieldStart, inField, endField, hfield]
  | held f first => simp [Cutter.step, inField, endField, hfield]
  | unquoted f => simp [Cutter.step, inField, endField, hfield]
  | closed f => simp [Cutter.step, inField, endField, hfield]

/-- The line feed behind a field ends the record, unless that could be a blank line. -/
theorem Inside.feed (h : Inside r f r') (hr : r.Begins) (hplace : r.place = .fieldStart) :
    r'.step '\n' = { r with fields := f :: r.fields }.endRecord := by
  have hfield := hr.field
  cases h with
  | nothing => simp [Cutter.step, hplace, atFieldStart, inField, endField, endRecord, hfield]
  | held f first => cases hplace.symm.trans first
  | unquoted f => simp [Cutter.step, inField, endField, endRecord, hfield]
  | closed f => simp [Cutter.step, inField, endField, endRecord, hfield]

/-- The fields of a row up to its end, unless the row could be a blank line. -/
theorem Begins.run_fields (hr : r.Begins) (f : List Char) {fs : List (List Char)}
    (hrow : r.place = .fieldStart ∨ fs ≠ []) :
    r.run (writeRow (f :: fs)) = { r with fields := (f :: fs).reverse ++ r.fields }.endRecord := by
  induction fs generalizing r f with
  | nil =>
    -- a comma stands before the last field, so even an empty or blank one ends its record
    have hplace : r.place = .fieldStart := hrow.resolve_right (· rfl)
    have hwritten : writeRow [f] = writeField f ++ ['\n'] := by simp [writeRow, List.intercalate]
    rw [hwritten, run_append, run_cons, (hr.run_writeField f).feed hr hplace]
    rfl
  | cons g fs ih =>
    have hwritten : writeRow (f :: g :: fs) = writeField f ++ ',' :: writeRow (g :: fs) := by
      simp [writeRow, List.intercalate]
    have hnext : Begins { r with place := .fieldStart, fields := f :: r.fields } := ⟨hr.field, .inr rfl⟩
    rw [hwritten, run_append, run_cons, (hr.run_writeField f).comma hr, ih hnext g (.inl rfl)]
    simp [endRecord]

end

/-- Rows of two fields or more are read one after another, each as one line. -/
theorem run_rows {rows : List (List (List Char))} (hrows : ∀ row ∈ rows, 2 ≤ row.length) (records : List Record)
    (lines : Nat) :
    run ⟨.recordStart, [], [], records, lines⟩ (rows.flatMap writeRow) =
      ⟨.recordStart, [], [], ((rows.zipIdx (lines + 1)).map fun p => ⟨p.1, p.2⟩).reverse ++ records,
        lines + rows.length⟩ := by
  induction rows generalizing records lines with
  | nil => rfl
  | cons row rows ih =>
    obtain ⟨hrow, hrest⟩ := List.forall_mem_cons.1 hrows
    obtain ⟨f, g, fs, rfl⟩ : ∃ f g fs, row = f :: g :: fs := by
      match row, hrow with
      | f :: g :: fs, _ => exact ⟨f, g, fs, rfl⟩
    have hbegins : Begins ⟨.recordStart, [], [], records, lines⟩ := ⟨rfl, .inl rfl⟩
    have hread : run ⟨.recordStart, [], [], records, lines⟩ (writeRow (f :: g :: fs)) =
        ⟨.recordStart, [], [], ⟨f :: g :: fs, lines + 1⟩ :: records, lines + 1⟩ := by
      rw [hbegins.run_fields f (.inr (List.cons_ne_nil g fs))]
      simp [endRecord]
    rw [List.flatMap_cons, run_append, hread, ih hrest]
    simp [Nat.add_comm, Nat.add_left_comm]

end Cutter

theorem records_rows {rows : List (List (List Char))} (hrows : ∀ row ∈ rows, 2 ≤ row.length) :
    records (rows.flatMap writeRow) = ((rows.zipIdx 1).map fun p => ⟨p.1, p.2⟩, none) := by
  have hrun : (rows.flatMap writeRow).foldl Cutter.step Cutter.start = _ := Cutter.run_rows hrows [] 0
  rw [records, hrun, Cutter.finish, List.append_nil, List.reverse_reverse]

/-! ## Tables -/

/-- The column of the first name is the first one. -/
theorem Table.column?_first (name : String) (names : List String) (rows : List (List String)) :
    (Table.mk (name :: names) rows).column? name = some (rows.map fun row => row.getD 0 "") := by
  simp [column?, List.findIdx?_cons]

/-- Rows as wide as the table are not filled up. -/
theorem fillRows_of_width {width : Nat} {rs : List Record} (h : ∀ r ∈ rs, r.fields.length = width) :
    fillRows width rs = .ok (rs.map Record.fields) := by
  induction rs with
  | nil => rfl
  | cons r rs ih =>
    obtain ⟨hr, hrs⟩ := List.forall_mem_cons.1 h
    rw [fillRows, if_neg (by omega), ih hrs, fillRows.fill, hr, Nat.sub_self, List.replicate_zero, List.append_nil]
    rfl

/-- What a cell shows of its field. -/
def shown (field : List Char) : List Char := field.takeWhile (· ≠ '\x00')

theorem table_of_records {cs : List Char} (hmark : cs.head? ≠ some '\ufeff') {header : Record} {rs : List Record}
    (hrecords : records cs = (header :: rs, none)) (hwidth : ∀ r ∈ rs, r.fields.length = header.fields.length) :
    table cs = .ok ⟨distinct (header.fields.map shown), (rs.map Record.fields).map (·.map (String.ofList ∘ shown))⟩ := by
  unfold table
  split
  · exact absurd rfl hmark
  · simp only [hrecords]
    cases rs with
    | nil => rfl
    | cons first rest =>
      obtain ⟨hfirst, hrest⟩ := List.forall_mem_cons.1 hwidth
      have hfill : fillRows header.fields.length rest = .ok (rest.map Record.fields) := fillRows_of_width hrest
      have hsame : fillRows.fill header.fields.length first.fields = first.fields := by
        simp [fillRows.fill, hfirst]
      simp only [hfirst, Nat.max_self, hfill, hsame, pure_bind, List.head?_cons, Option.map_some, Option.getD_some,
        Nat.sub_self, List.drop_zero]
      rfl

theorem map_fields_zipIdx (rows : List (List (List Char))) (line : Nat) :
    ((rows.zipIdx line).map fun p => Record.mk p.1 p.2).map Record.fields = rows := by
  rw [List.map_map]
  exact List.zipIdx_map_fst line rows

/-- Rows as wide as their header are read back from what is written, each text up to its first NUL. -/
theorem table_write {header : List String} {rows : List (List String)} (hheader : 2 ≤ header.length)
    (hrows : ∀ row ∈ rows, row.length = header.length)
    (hmark : (writeRow (header.map String.toList)).head? ≠ some '\ufeff') :
    table (write (header :: rows)).toList =
      .ok ⟨distinct (header.map (shown ∘ String.toList)),
        rows.map (·.map (String.ofList ∘ shown ∘ String.toList))⟩ := by
  have hwidth : ∀ row ∈ rows.map (·.map String.toList), row.length = header.length := by
    intro row hrow
    obtain ⟨row, hmem, rfl⟩ := List.mem_map.1 hrow
    rw [List.length_map, hrows row hmem]
  have hwide : ∀ row ∈ (header :: rows).map (·.map String.toList), 2 ≤ row.length := by
    rw [List.map_cons, List.forall_mem_cons, List.length_map]
    exact ⟨hheader, fun row hrow => (hwidth row hrow).symm ▸ hheader⟩
  have htext : (write (header :: rows)).toList = ((header :: rows).map (·.map String.toList)).flatMap writeRow := by
    rw [write, String.toList_ofList, List.flatMap_map]
  have hfirst : (write (header :: rows)).toList.head? ≠ some '\ufeff' := by
    rw [htext, List.map_cons, List.flatMap_cons, List.head?_append_of_ne_nil _ (by simp [writeRow])]
    exact hmark
  have hrecords := records_rows hwide
  rw [← htext, List.map_cons, List.zipIdx_cons, List.map_cons] at hrecords
  rw [table_of_records hfirst hrecords, map_fields_zipIdx]
  · simp [Function.comp_def]
  · intro r hr
    have hmem := List.mem_map_of_mem (f := Record.fields) hr
    rw [map_fields_zipIdx] at hmem
    exact (hwidth _ hmem).trans (List.length_map _).symm

end Reckoner.Csv
