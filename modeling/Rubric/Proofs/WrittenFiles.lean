import Rubric.Proofs.JoinedPaths

/-!
Files after a write. A file is written where no directory stands, so every directory stays one and
keeps the names in it. Paths that led somewhere lead to the same place afterwards. Below a path
that leads to the current directory the new file is found under its name, and every other name has
what it had before.
-/
namespace Rubric.Files

namespace Entry

theorem find?_replace (entries : List (String × Entry)) (name other : String) (entry : Entry) :
    find? (replace entries name entry) other =
      if other = name then some entry else find? entries other := by
  unfold find? replace
  by_cases hsame : other = name
  · subst hsame
    simp
  · have hfilter : (entries.filter fun kept => kept.1 != name).find? (fun kept => kept.1 == other) =
        entries.find? fun kept => kept.1 == other := by
      rw [List.find?_filter]
      congr 1
      funext kept
      by_cases hkept : kept.1 = other <;> simp [hkept, hsame]
    simp [Ne.symm hsame, hsame, hfilter]

/-- The directories of one tree are directories of another one, where they have at least the same
names. -/
def KeepsDirectories (before after : Entry) : Prop :=
  ∀ place entries, before.get? place = some (.directory entries) →
    ∃ more, after.get? place = some (.directory more) ∧
      ∀ name, (find? entries name).isSome → (find? more name).isSome

theorem keepsDirectories_file (content : ByteArray) (after : Entry) :
    KeepsDirectories (.file content) after := by
  intro place entries hplace
  cases place <;> simp [get?] at hplace

/-- Something that is put where no directory stands takes no directory away. -/
theorem keepsDirectories_put (names : List String) (entry new : Entry)
    (h : ∀ entries, entry.get? names ≠ some (.directory entries)) :
    KeepsDirectories entry (entry.put names new) := by
  -- The chain is followed down: only the entry under its first name changes at each level.
  induction names generalizing entry with
  | nil =>
    cases entry with
    | file content => exact keepsDirectories_file content _
    | directory entries => exact absurd rfl (h entries)
  | cons name rest ih =>
    cases entry with
    | file content => exact keepsDirectories_file content _
    | directory entries =>
      intro place below hplace
      cases place with
      | nil =>
        obtain rfl : entries = below := by simpa [get?] using hplace
        refine ⟨_, rfl, fun other hother => ?_⟩
        rw [find?_replace]
        split
        · rfl
        · exact hother
      | cons other more =>
        rw [put, get?, find?_replace]
        obtain ⟨child, hchild, hmore⟩ := Option.bind_eq_some_iff.mp hplace
        by_cases hother : other = name
        · subst hother
          have hrest : ∀ entries, child.get? rest ≠ some (.directory entries) := by
            intro entries hentries
            exact h entries (by rw [get?, hchild, Option.bind_some, hentries])
          rw [if_pos rfl, Option.bind_some, hchild, Option.getD_some]
          exact ih child hrest more below hmore
        · rw [if_neg hother, hchild, Option.bind_some]
          exact ⟨below, hmore, fun _ hname => hname⟩

theorem get?_concat (root : Entry) (place : List String) (entries : List (String × Entry))
    (name : String) (h : root.get? place = some (.directory entries)) :
    root.get? (place ++ [name]) = find? entries name := by
  induction place generalizing root with
  | nil =>
    obtain rfl : root = .directory entries := by simpa [get?] using h
    simp [get?]
  | cons first rest ih =>
    cases root with
    | file content => simp [get?] at h
    | directory top =>
      obtain ⟨child, hchild, hrest⟩ := Option.bind_eq_some_iff.mp h
      rw [List.cons_append, get?, hchild, Option.bind_some, ih child hrest]

/-- What is put into a directory replaces what has its name there. -/
theorem get?_put_concat (root : Entry) (place : List String) (entries : List (String × Entry))
    (name : String) (new : Entry) (h : root.get? place = some (.directory entries)) :
    (root.put (place ++ [name]) new).get? place = some (.directory (replace entries name new)) := by
  induction place generalizing root with
  | nil =>
    obtain rfl : root = .directory entries := by simpa [get?] using h
    rfl
  | cons first rest ih =>
    cases root with
    | file content => simp [get?] at h
    | directory top =>
      obtain ⟨child, hchild, hrest⟩ := Option.bind_eq_some_iff.mp h
      rw [List.cons_append, put, get?, find?_replace, if_pos rfl, Option.bind_some, hchild,
        Option.getD_some, ih child hrest]

end Entry

section Walks

variable (files other : Files) (hkeeps : files.root.KeepsDirectories other.root)

include hkeeps in
theorem step_of_keeps (place next : List String) (segment : Path.Segment)
    (h : files.step place segment = .ok next) : other.step place segment = .ok next := by
  unfold step at h ⊢
  split at h
  · simp at h
  · simp at h
  · next entries hplace =>
    obtain ⟨more, hmore, hnames⟩ := hkeeps place entries hplace
    simp only [hmore]
    split at h
    · next hstay => rwa [if_pos hstay]
    · next hstay =>
      rw [if_neg hstay]
      split at h
      · next hup => rwa [if_pos hup]
      · next hup =>
        rw [if_neg hup]
        split at h
        · simp at h
        · next hshort =>
          split at h
          · next hfound => rwa [if_neg hshort, if_pos (hnames _ hfound)]
          · simp at h

include hkeeps in
theorem foldlM_step_of_keeps (segments : List Path.Segment) (start place : List String)
    (h : segments.foldlM files.step start = .ok place) :
    segments.foldlM other.step start = .ok place := by
  induction segments generalizing start with
  | nil => exact h
  | cons segment rest ih =>
    rw [List.foldlM_cons] at h ⊢
    cases hstep : files.step start segment with
    | error fault => simp [hstep, bind, Except.bind] at h
    | ok next =>
      rw [hstep] at h
      rw [step_of_keeps files other hkeeps start next segment hstep]
      exact ih next h

include hkeeps in
/-- A path that leads somewhere goes on leading there. -/
theorem locate_of_keeps (hcurrent : other.current = files.current) (path : Path)
    (place : List String) (h : files.locate path = .ok place) :
    other.locate path = .ok place := by
  rw [locate_eq_ok] at h ⊢
  obtain ⟨hnull, hempty, hshort, hfold⟩ := h
  rw [hcurrent]
  exact ⟨hnull, hempty, hshort, foldlM_step_of_keeps files other hkeeps _ _ _ hfold⟩

end Walks

/-- Below a path that leads to a directory stands what the directory has. -/
theorem entry_join (files : Files) (directory : Path) (name : String) (place : List String)
    (entries : List (String × Entry)) (hname : IsName name)
    (hdirectory : files.locate directory = .ok place)
    (hplace : files.root.get? place = some (.directory entries))
    (hroom : (directory.join ⟨name⟩).text.utf8ByteSize ≤ pathLimit) :
    files.entry (directory.join ⟨name⟩) =
      match Entry.find? entries name with
      | some entry => .ok entry
      | none => .error .notFound := by
  have hstep : files.step place name.toList =
      if (Entry.find? entries name).isSome then .ok (place ++ [name]) else .error .notFound := by
    simp [step, hplace, hname.nonempty, hname.ne_dot, hname.ne_dots, Nat.not_lt.mpr hname.short]
  rw [entry, locate_join files directory name place hname hdirectory hroom, hstep]
  cases hfind : Entry.find? entries name with
  | none => simp
  | some found => simp [Entry.get?_concat files.root place entries name hplace, hfind]

/-- A write puts a file into the current directory where it has no directory. -/
theorem write_eq_ok (files other : Files) (name content : String)
    (h : files.write name content = .ok other) :
    ∃ entries, files.root.get? files.current = some (.directory entries) ∧
      (∀ below, Entry.find? entries name ≠ some (.directory below)) ∧
      other = { files with
        root := files.root.put (files.current ++ [name]) (.file content.toUTF8) } := by
  unfold write at h
  split at h
  · next entries hentries =>
    split at h
    · simp at h
    · next hnone => exact ⟨entries, hentries, hnone, (Except.ok.inj h).symm⟩
  · simp at h
  · simp at h

/-- A directory's path leads to the current directory and has room for a name behind it. -/
structure LeadsHere (files : Files) (directory : Path) (name : String) : Prop where
  here : files.locate directory = .ok files.current
  room : (directory.join ⟨name⟩).text.utf8ByteSize ≤ pathLimit

/-- A path that is too long is refused whatever the files are. -/
theorem entry_of_long (files other : Files) (path : Path)
    (h : pathLimit < path.text.utf8ByteSize) : files.entry path = other.entry path := by
  have hlocate : files.locate path = other.locate path := by
    simp only [locate, if_pos h]
  have hfault : ∃ fault, other.locate path = .error fault := by
    simp only [locate, if_pos h]
    split
    · exact ⟨_, rfl⟩
    · split <;> exact ⟨_, rfl⟩
  obtain ⟨fault, hfault⟩ := hfault
  rw [entry, entry, hlocate, hfault]

section Writes

variable {files other : Files} {name content : String}
  (hwrite : files.write name content = .ok other)

include hwrite in
theorem locate_write (path : Path) (place : List String) (h : files.locate path = .ok place) :
    other.locate path = .ok place := by
  obtain ⟨entries, hentries, hnone, hother⟩ := write_eq_ok files other name content hwrite
  have hkeeps : files.root.KeepsDirectories other.root := by
    rw [hother]
    apply Entry.keepsDirectories_put
    intro below
    rw [Entry.get?_concat _ _ _ _ hentries]
    exact hnone below
  exact locate_of_keeps files other hkeeps (by rw [hother]) path place h

include hwrite in
/-- After a write the current directory has the new file, and otherwise what it had. -/
theorem entry_join_write (directory : Path) (asked : String) (hasked : IsName asked)
    (h : files.LeadsHere directory asked) :
    other.entry (directory.join ⟨asked⟩) =
      if asked = name then .ok (.file content.toUTF8)
      else files.entry (directory.join ⟨asked⟩) := by
  have hafter := locate_write hwrite directory files.current h.here
  obtain ⟨entries, hentries, -, rfl⟩ := write_eq_ok files other name content hwrite
  have hput := Entry.get?_put_concat files.root files.current entries name
    (.file content.toUTF8) hentries
  rw [entry_join _ directory asked files.current _ hasked hafter hput h.room,
    entry_join files directory asked files.current entries hasked h.here hentries h.room,
    Entry.find?_replace]
  by_cases hsame : asked = name
  · rw [if_pos hsame, if_pos hsame]
  · rw [if_neg hsame, if_neg hsame]

include hwrite in
theorem entry_join_write_self (directory : Path) (hname : IsName name)
    (h : files.LeadsHere directory name) :
    other.entry (directory.join ⟨name⟩) = .ok (.file content.toUTF8) := by
  rw [entry_join_write hwrite directory name hname h, if_pos rfl]

include hwrite in
/-- Other names keep what they had, if only because their paths are too long. -/
theorem entry_join_write_other (directory : Path) (asked : String) (hasked : IsName asked)
    (hne : asked ≠ name) (hhere : files.locate directory = .ok files.current) :
    other.entry (directory.join ⟨asked⟩) = files.entry (directory.join ⟨asked⟩) := by
  by_cases hroom : (directory.join ⟨asked⟩).text.utf8ByteSize ≤ pathLimit
  · rw [entry_join_write hwrite directory asked hasked ⟨hhere, hroom⟩, if_neg hne]
  · exact entry_of_long other files _ (Nat.lt_of_not_le hroom)

end Writes

theorem textOf_toUTF8 (text : String) : textOf text.toUTF8 = .ok text := by
  have hread : String.fromUTF8? text.toUTF8 = some text := dif_pos text.isValidUTF8
  rw [textOf, hread]

end Rubric.Files
