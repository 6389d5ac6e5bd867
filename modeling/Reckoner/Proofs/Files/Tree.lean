import Mathlib.Data.List.Basic
import Reckoner.Files.Tree

/-!
# Files of a tree

* `FileTree.Grows` — what was found by a path is still found by it.
* `FileTree.read_append` — bytes at the end of a file.
* `FileTree.Sound` — a tree in which every name leads to something.
* `FileTree.Sound.createLevels`, `FileTree.Sound.read_openEmpty` — directories that are made, and a
  file that was opened for writing, which is there and empty.
-/

namespace Reckoner

namespace FileTree

variable {t t' : FileTree} {path name : String} {place found : Nat} {content : Bytes}

/-- A computation in two steps succeeds if both of them do. -/
theorem ok_of_bind {α β : Type} {x : Except FileError α} {f : α → Except FileError β} {b : β}
    (h : x >>= f = .ok b) : ∃ a, x = .ok a ∧ f a = .ok b := by
  cases x with
  | error => cases h
  | ok a => exact ⟨a, rfl, h⟩

/-! ### Trees that grow -/

/-- **Growing.** Every directory is still there, and what it holds is found under the same name. -/
structure Grows (t t' : FileTree) : Prop where
  here : t'.here = t.here
  directories : ∀ {place above : Nat} {entries : List (String × Nat)},
    t.node? place = some (.directory above entries) → ∃ entries',
      t'.node? place = some (.directory above entries') ∧
        ∀ {name : String} {found : Nat}, entries.lookup name = some found →
          entries'.lookup name = some found

theorem Grows.refl (t : FileTree) : t.Grows t :=
  ⟨rfl, fun hnode => ⟨_, hnode, fun hname => hname⟩⟩

theorem Grows.enter (h : t.Grows t') (henter : t.enter place name = .ok found) :
    t'.enter place name = .ok found := by
  unfold FileTree.enter at henter ⊢
  cases hnode : t.node? place with
  | none => simp [hnode] at henter
  | some node =>
    cases node with
    | file content => simp [hnode] at henter
    | directory above entries =>
      obtain ⟨entries', hnode', hlookup⟩ := h.directories hnode
      simp only [hnode, hnode'] at henter ⊢
      by_cases hdot : name = "."
      · rwa [if_pos hdot] at henter ⊢
      by_cases hup : name = ".."
      · rwa [if_neg hdot, if_pos hup] at henter ⊢
      by_cases hlong : longestName < name.utf8ByteSize
      · rw [if_neg hdot, if_neg hup, if_pos hlong] at henter
        cases henter
      rw [if_neg hdot, if_neg hup, if_neg hlong] at henter ⊢
      cases hlookup' : entries.lookup name with
      | none => simp [hlookup'] at henter
      | some other =>
        rw [hlookup'] at henter
        rw [hlookup hlookup']
        exact henter

theorem Grows.enterAll (h : t.Grows t') {names : List String}
    (hall : names.foldlM t.enter place = .ok found) :
    names.foldlM t'.enter place = .ok found := by
  induction names generalizing place with
  | nil => exact hall
  | cons name names ih =>
    rw [List.foldlM_cons] at hall ⊢
    obtain ⟨next, hnext, hrest⟩ := ok_of_bind hall
    rw [h.enter hnext]
    exact ih hrest

theorem isDirectory_iff : t.isDirectory place = true ↔
    ∃ above entries, t.node? place = some (.directory above entries) := by
  unfold isDirectory
  split
  · rename_i above entries hnode
    exact ⟨fun _ => ⟨above, entries, hnode⟩, fun _ => rfl⟩
  · rename_i hnode
    exact ⟨nofun, fun ⟨above, entries, hsome⟩ => absurd hsome (hnode above entries)⟩

theorem Grows.isDirectory (h : t.Grows t') (hdir : t.isDirectory place = true) :
    t'.isDirectory place = true := by
  obtain ⟨above, entries, hnode⟩ := isDirectory_iff.mp hdir
  obtain ⟨entries', hnode', -⟩ := h.directories hnode
  exact isDirectory_iff.mpr ⟨above, entries', hnode'⟩

theorem Grows.start (h : t.Grows t') (path : String) : t'.start path = t.start path := by
  unfold FileTree.start
  rw [h.here]

theorem locate_eq_ok : t.locate path = .ok place ↔
    (∃ first, t.start path = .ok first ∧ (names path).foldlM t.enter first = .ok place) ∧
      (path.endsWith "/" = true → t.isDirectory place = true) := by
  constructor
  · intro h
    obtain ⟨first, hfirst, h⟩ := ok_of_bind h
    obtain ⟨last, hlast, h⟩ := ok_of_bind h
    split at h
    · cases h
    · rename_i hslash
      cases h
      exact ⟨⟨first, hfirst, hlast⟩, fun hends => by simpa [hends] using hslash⟩
  · rintro ⟨⟨first, hfirst, hlast⟩, hslash⟩
    have hno : ¬(path.endsWith "/" && !t.isDirectory place) = true := by
      simpa using hslash
    unfold locate
    simp only [hfirst, hlast, bind, Except.bind, if_neg hno]

theorem Grows.locate (h : t.Grows t') (hplace : t.locate path = .ok place) :
    t'.locate path = .ok place := by
  obtain ⟨⟨first, hfirst, hlast⟩, hslash⟩ := locate_eq_ok.mp hplace
  exact locate_eq_ok.mpr ⟨⟨first, (h.start path).trans hfirst, h.enterAll hlast⟩,
    fun hends => h.isDirectory (hslash hends)⟩

/-! ### Contents -/

theorem node?_replace (hnode : t.node? found = some (.file content)) (other : Bytes) :
    (t.replace found (.file other)).node? place
      = if found = place then some (.file other) else t.node? place := by
  have hlt : found < t.nodes.size := (Array.getElem?_eq_some_iff.mp hnode).1
  unfold node? replace
  rw [Array.getElem?_setIfInBounds, if_pos hlt]

/-- Another content of a file is no matter of directories. -/
theorem grows_replace (hnode : t.node? found = some (.file content)) (other : Bytes) :
    t.Grows (t.replace found (.file other)) := by
  refine ⟨rfl, fun {place above entries} hdir => ⟨entries, ?_, fun hname => hname⟩⟩
  have hne : found ≠ place := by
    rintro rfl
    rw [hnode] at hdir
    cases hdir
  rw [node?_replace hnode, if_neg hne, hdir]

theorem read_eq_ok : t.read path = .ok content ↔
    ∃ place, t.locate path = .ok place ∧ t.node? place = some (.file content) := by
  constructor
  · intro h
    obtain ⟨place, hplace, h⟩ := ok_of_bind h
    split at h
    · cases h
    · cases h
    · rename_i hnode
      cases h
      exact ⟨place, hplace, hnode⟩
  · rintro ⟨place, hplace, hnode⟩
    unfold read
    simp only [hplace, hnode, bind, Except.bind]

/-- With another content at its place, a file has this content. -/
theorem read_replace (hplace : t.locate path = .ok place)
    (hnode : t.node? place = some (.file content)) (other : Bytes) :
    (t.replace place (.file other)).read path = .ok other :=
  read_eq_ok.mpr ⟨place, (grows_replace hnode other).locate hplace,
    by rw [node?_replace hnode, if_pos rfl]⟩

/-- **Bytes at the end of a file.** -/
theorem read_append (h : t.read path = .ok content) (bytes : Bytes) :
    (t.append path bytes).read path = .ok (content ++ bytes) := by
  obtain ⟨place, hplace, hnode⟩ := read_eq_ok.mp h
  have happend : t.append path bytes = t.replace place (.file (content ++ bytes)) := by
    unfold append
    simp only [hplace, hnode]
  rw [happend]
  exact read_replace hplace hnode _

/-! ### Sound trees -/

/-- **Sound trees.** Every name leads to something. -/
structure Sound (t : FileTree) : Prop where
  leads : ∀ {place above : Nat} {entries : List (String × Nat)},
    t.node? place = some (.directory above entries) → ∀ entry ∈ entries, entry.2 < t.nodes.size

theorem sound_empty : empty.Sound := by
  constructor
  intro place above entries hnode entry hentry
  cases place with
  | zero =>
    cases hnode
    cases hentry
  | succ n => cases hnode

theorem Sound.lt_of_enter (h : t.Sound) (hdot : name ≠ ".") (hup : name ≠ "..")
    (henter : t.enter place name = .ok found) : found < t.nodes.size := by
  unfold enter at henter
  cases hnode : t.node? place with
  | none => simp [hnode] at henter
  | some node =>
    cases node with
    | file content => simp [hnode] at henter
    | directory above entries =>
      simp only [hnode, if_neg hdot, if_neg hup] at henter
      split at henter
      · cases henter
      split at henter
      · rename_i hlookup
        cases henter
        obtain ⟨before, after, rfl, -⟩ := List.lookup_eq_some_iff.mp hlookup
        exact h.leads hnode (name, _) (List.mem_append_right _ List.mem_cons_self)
      · cases henter

/-! ### What is made -/

theorem node?_add (t : FileTree) (place other : Nat) (name : String) (node : FileNode) :
    (t.add place name node).node? other
      = if other = t.nodes.size then some node
        else if place = other then (t.node? other).map (withEntry name t.nodes.size)
        else t.node? other := by
  unfold node? add
  rw [Array.getElem?_push, Array.size_modify, Array.getElem?_modify]

/-- Nothing is hidden by a name that led to nothing. -/
theorem grows_add (hnew : t.enter place name = .error .notFound) (node : FileNode) :
    t.Grows (t.add place name node) := by
  refine ⟨rfl, fun {other above entries} hdir => ?_⟩
  have hne : other ≠ t.nodes.size := by
    rintro rfl
    rw [node?, Array.getElem?_size] at hdir
    cases hdir
  rw [node?_add, if_neg hne]
  by_cases hplace : place = other
  · subst hplace
    rw [if_pos rfl, hdir]
    refine ⟨_, rfl, fun {name' found} hlookup => ?_⟩
    have hdifferent : name' ≠ name := by
      rintro rfl
      -- It would have led to something.
      unfold enter at hnew
      simp only [hdir, hlookup] at hnew
      split at hnew
      · cases hnew
      split at hnew
      · cases hnew
      split at hnew <;> cases hnew
    rw [List.lookup_cons, beq_eq_false_iff_ne.mpr hdifferent]
    exact hlookup
  · rw [if_neg hplace]
    exact ⟨entries, hdir, fun hlookup => hlookup⟩

/-- What is new is found. -/
theorem enter_add (hdir : t.isDirectory place = true)
    (hnew : t.enter place name = .error .notFound) (node : FileNode) :
    (t.add place name node).enter place name = .ok t.nodes.size := by
  obtain ⟨above, entries, hnode⟩ := isDirectory_iff.mp hdir
  have hne : place ≠ t.nodes.size := by
    rintro rfl
    rw [node?, Array.getElem?_size] at hnode
    cases hnode
  have hafter : (t.add place name node).node? place
      = some (.directory above ((name, t.nodes.size) :: entries)) := by
    rw [node?_add, if_neg hne, if_pos rfl, hnode]
    rfl
  unfold enter at hnew ⊢
  simp only [hnode] at hnew
  simp only [hafter, List.lookup_cons_self]
  split at hnew
  · cases hnew
  split at hnew
  · cases hnew
  split at hnew
  · cases hnew
  rename_i hdot hup hlong
  rw [if_neg hdot, if_neg hup, if_neg hlong]

theorem size_add (t : FileTree) (place : Nat) (name : String) (node : FileNode) :
    (t.add place name node).nodes.size = t.nodes.size + 1 := by
  rw [add, Array.size_push, Array.size_modify]

/-- What is new has nothing in it. -/
theorem Sound.add (h : t.Sound) (place : Nat) (name : String) {node : FileNode}
    (hempty : ∀ above entries, node = .directory above entries → entries = []) :
    (t.add place name node).Sound := by
  constructor
  intro other above entries hnode entry hentry
  rw [size_add]
  rw [node?_add] at hnode
  split at hnode
  · rw [hempty above entries (Option.some.inj hnode)] at hentry
    cases hentry
  split at hnode
  · obtain ⟨before, hbefore, heq⟩ := Option.map_eq_some_iff.mp hnode
    cases before with
    | file content => cases heq
    | directory above' entries' =>
      cases heq
      rcases List.mem_cons.mp hentry with rfl | hentry
      · exact Nat.lt_succ_self _
      · exact Nat.lt_succ_of_lt (h.leads hbefore entry hentry)
  · exact Nat.lt_succ_of_lt (h.leads hnode entry hentry)

theorem Sound.createDirectory (h : t.Sound) (hmade : t.createDirectory path = .ok t') :
    t'.Sound := by
  obtain ⟨⟨place, name?⟩, -, hmade⟩ := ok_of_bind hmade
  cases name? with
  | none => cases hmade
  | some name =>
    cases henter : t.enter place name with
    | ok found => simp [henter] at hmade
    | error e =>
      simp only [henter] at hmade
      split at hmade
      · cases hmade
      · cases hmade
        refine h.add place name ?_
        rintro _ _ heq
        cases heq
        rfl
      · cases hmade

theorem Sound.ensureDirectory (h : t.Sound) (hmade : t.ensureDirectory path = .ok t') :
    t'.Sound := by
  unfold FileTree.ensureDirectory at hmade
  split at hmade
  · rename_i hcreate
    cases hmade
    exact h.createDirectory hcreate
  · split at hmade
    · cases hmade
      exact h
    · cases hmade

theorem Sound.createLevels (h : t.Sound) {paths : List String}
    (hmade : t.createLevels paths = .ok t') : t'.Sound := by
  induction paths generalizing t' with
  | nil =>
    cases hmade
    exact h
  | cons path above ih =>
    unfold FileTree.createLevels at hmade
    split at hmade
    · obtain ⟨higher, hhigher, hmade⟩ := ok_of_bind hmade
      exact (ih hhigher).ensureDirectory hmade
    · exact h.ensureDirectory hmade

/-- The names on a path that leads to something with a name of its own. -/
theorem locateLast_eq_ok (h : t.locateLast path = .ok (place, some name)) :
    ∃ first, t.start path = .ok first ∧
      (names path).dropLast.foldlM t.enter first = .ok place ∧
      names path = (names path).dropLast ++ [name] ∧
      t.isDirectory place = true ∧ name ≠ "." ∧ name ≠ ".." := by
  obtain ⟨first, hfirst, h⟩ := ok_of_bind h
  obtain ⟨last, hlast, h⟩ := ok_of_bind h
  split at h
  · cases h
  · rename_i hdir
    simp only [Except.ok.injEq, Prod.mk.injEq] at h
    obtain ⟨rfl, hname⟩ := h
    obtain ⟨hlastname, hproper⟩ := Option.filter_eq_some_iff.mp hname
    obtain ⟨hdot, hup⟩ : name ≠ "." ∧ name ≠ ".." := by simpa using hproper
    refine ⟨first, hfirst, hlast, ?_, by simpa using hdir, hdot, hup⟩
    exact (List.dropLast_append_getLast? name hlastname).symm

/-- The path leads where its last name leads to. -/
theorem Grows.locate_last (h : t.Grows t') (hlast : t.locateLast path = .ok (place, some name))
    (hslash : ¬path.endsWith "/" = true) (henter : t'.enter place name = .ok found) :
    t'.locate path = .ok found := by
  obtain ⟨first, hfirst, habove, hnames, -⟩ := locateLast_eq_ok hlast
  refine locate_eq_ok.mpr ⟨⟨first, (h.start path).trans hfirst, ?_⟩,
    fun hends => absurd hends hslash⟩
  rw [hnames, List.foldlM_append, h.enterAll habove]
  show (t'.enter place name >>= fun next => pure next) = _
  rw [henter]
  rfl

theorem exists_file (hlt : place < t.nodes.size) (hdir : ¬t.isDirectory place = true) :
    ∃ content, t.node? place = some (.file content) := by
  cases hnode : t.node? place with
  | none => exact absurd hlt (Nat.not_lt.mpr (Array.getElem?_eq_none_iff.mp hnode))
  | some node =>
    cases node with
    | file content => exact ⟨content, rfl⟩
    | directory above entries => exact absurd (isDirectory_iff.mpr ⟨above, entries, hnode⟩) hdir

/-- **A file that was opened for writing** is there, and empty. -/
theorem Sound.read_openEmpty (h : t.Sound) (hopen : t.openEmpty path = .ok t') :
    t'.read path = .ok [] := by
  obtain ⟨⟨place, name?⟩, hlast, hopen⟩ := ok_of_bind hopen
  cases name? with
  | none => cases hopen
  | some name =>
    obtain ⟨-, -, -, -, hdir, hdot, hup⟩ := locateLast_eq_ok hlast
    simp only at hopen
    split at hopen
    · cases hopen
    rename_i hslash
    cases henter : t.enter place name with
    | ok found =>
      -- The file was there, and what was in it is dropped.
      simp only [henter] at hopen
      split at hopen
      · cases hopen
      · rename_i hfile
        cases hopen
        obtain ⟨content, hnode⟩ := exists_file (h.lt_of_enter hdot hup henter) hfile
        exact read_replace ((Grows.refl t).locate_last hlast hslash henter) hnode []
    | error e =>
      simp only [henter] at hopen
      split at hopen
      · rename_i hok
        cases hok
      · -- It was not, and is made.
        rename_i heq
        cases heq
        cases hopen
        have hgrows := grows_add henter (.file [])
        refine read_eq_ok.mpr ⟨t.nodes.size,
          hgrows.locate_last hlast hslash (enter_add hdir henter _), ?_⟩
        rw [node?_add, if_pos rfl]
      · cases hopen

end FileTree

end Reckoner
