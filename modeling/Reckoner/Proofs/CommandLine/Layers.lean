import Reckoner.CommandLine.Run
import Mathlib.Data.List.Nodup
import Mathlib.Logic.Function.Basic

/-!
# Settings in layers

Where the settings of a run come from: the arguments, the surroundings, the file, the defaults, in
this order.

* `Settings.value?` — settings, read entry by entry.
* `Settings.value?_of_entries` — a document says what its entries say, and nothing else.
* `Arguments.layer`, `Settings.Surroundings.layer`, `Settings.fileLayer` — what each layer says.
* `Arguments.topValue` — the value of the highest layer that has one.
* `Arguments.Readable` — the file and the port in the surroundings can be made out.
* `Arguments.Layered`, `Arguments.settings_by_layers` — the settings of a run are the top values if
  these pass the check, and if the address that the arguments may have overridden is one too.
-/

namespace Reckoner

namespace Settings

variable {s s' : Settings} {key : String} {v : Setting} {entries : List (String × Setting)}

/-! ### Entry by entry -/

/-- What an entry of this key says that leaves the settings as they are. -/
def value? (s : Settings) : String → Option Setting
  | "bind_address" => some (.text s.bindAddress)
  | "port" => some (.integer s.port.toNat)
  | "max_sessions" => some (.integer s.maxSessions)
  | "queue_capacity" => some (.integer s.queueCapacity)
  | "read_timeout_secs" => some (.integer s.readTimeoutSecs)
  | "write_timeout_secs" => some (.integer s.writeTimeoutSecs)
  | "max_line_length" => some (.integer s.maxLineLength)
  | "log_file" => some (.text s.logFile)
  | _ => none

/-- Settings are their entries. -/
theorem eq_of_value? (h : s.value? = s'.value?) : s = s' := by
  have hbind := congrFun h "bind_address"
  have hport := congrFun h "port"
  have hsessions := congrFun h "max_sessions"
  have hqueue := congrFun h "queue_capacity"
  have hread := congrFun h "read_timeout_secs"
  have hwrite := congrFun h "write_timeout_secs"
  have hline := congrFun h "max_line_length"
  have hlog := congrFun h "log_file"
  simp only [value?, Option.some.injEq, Setting.integer.injEq, Setting.text.injEq,
    Int.natCast_inj, UInt16.toNat_inj] at hbind hport hsessions hqueue hread hwrite hline hlog
  cases s
  cases s'
  simp_all

theorem count?_eq_some {n : Nat} (h : count? v = some n) : v = .integer n := by
  match v, h with
  | .integer (.ofNat _), rfl => rfl

theorem text?_eq_some {t : String} (h : text? v = some t) : v = .text t := by
  match v, h with
  | .text _, rfl => rfl

theorem port?_eq_some {port : UInt16} (h : port? v = some port) : v = .integer port.toNat := by
  obtain ⟨n, hn, hport⟩ := Option.bind_eq_some_iff.mp h
  split at hport
  · cases hport
    rw [count?_eq_some hn, UInt16.toNat_ofNat_of_lt' ‹_›]
  · cases hport

/-- An entry that is put in is read there, and the others are as they were. -/
theorem value?_set (h : s.set (key, v) = some s') :
    s'.value? = Function.update s.value? key (some v) := by
  unfold set at h
  split at h
  case h_9 => cases h
  -- One case for each key; they differ in the kind of the value.
  all_goals
    rename_i heq
    cases heq
    obtain ⟨value, hvalue, hs'⟩ := Option.bind_eq_some_iff.mp h
    cases hs'
    first
    | cases count?_eq_some hvalue
    | cases text?_eq_some hvalue
    | cases port?_eq_some hvalue
    refine Function.eq_update_iff.mpr ⟨rfl, fun other hother => ?_⟩
    unfold value?
    split <;> first | rfl | exact absurd rfl hother

/-! ### Documents -/

theorem length_eraseDups_le {α : Type} [BEq α] (l : List α) : l.eraseDups.length ≤ l.length := by
  induction hn : l.length using Nat.strongRecOn generalizing l with
  | _ n ih =>
    cases l with
    | nil => simp
    | cons a l =>
      have hle := List.length_filter_le (fun b => !b == a) l
      have := ih _ (by simp only [List.length_cons] at hn; omega) (l.filter fun b => !b == a) rfl
      simp only [List.eraseDups_cons, List.length_cons] at *
      omega

/-- A list that loses nothing with its repetitions has none. -/
theorem nodup_of_length_eraseDups {α : Type} [BEq α] [LawfulBEq α] {l : List α}
    (h : l.eraseDups.length = l.length) : l.Nodup := by
  induction l with
  | nil => exact List.nodup_nil
  | cons a l ih =>
    have hle := length_eraseDups_le (l.filter fun b => !b == a)
    have hfilter := List.length_filter_le (fun b => !b == a) l
    simp only [List.eraseDups_cons, List.length_cons] at h
    -- Nothing is filtered out, so the first entry does not come again.
    have hall : l.filter (fun b => !b == a) = l :=
      List.filter_sublist.eq_of_length (by omega)
    refine List.nodup_cons.mpr ⟨fun hmem => ?_, ih (by rw [hall] at h; omega)⟩
    have := List.filter_eq_self.mp hall a hmem
    simp at this

theorem nodup_of_entries? {text : String} (h : Document.entries? text = some entries) :
    (entries.map Prod.fst).Nodup := by
  obtain ⟨lines, -, hlines⟩ := Option.bind_eq_some_iff.mp h
  split at hlines
  · cases hlines
    refine nodup_of_length_eraseDups ?_
    rw [List.length_map]
    assumption
  · cases hlines

/-- Entries that are put in one after the other are read there, and the others are as they were. -/
theorem value?_foldlM (hkeys : (entries.map Prod.fst).Nodup)
    (h : entries.foldlM set s = some s') (key : String) :
    s'.value? key = (entries.lookup key).or (s.value? key) := by
  induction entries generalizing s with
  | nil =>
    cases h
    rfl
  | cons entry entries ih =>
    obtain ⟨first, v⟩ := entry
    rw [List.map_cons, List.nodup_cons] at hkeys
    obtain ⟨hfirst, hkeys⟩ := hkeys
    rw [List.foldlM_cons] at h
    obtain ⟨next, hnext, hrest⟩ := Option.bind_eq_some_iff.mp h
    rw [ih hkeys hrest, value?_set hnext]
    by_cases hkey : key = first
    · subst hkey
      have hnone : entries.lookup key = none := by
        rw [List.lookup_eq_none_iff]
        rintro ⟨other, _⟩ hmem
        rw [bne_iff_ne]
        rintro rfl
        exact hfirst (List.mem_map.mpr ⟨_, hmem, rfl⟩)
      rw [Function.update_self, hnone, List.lookup_cons_self]
      rfl
    · rw [Function.update_of_ne hkey, List.lookup_cons, beq_eq_false_iff_ne.mpr hkey]

/-- What the settings file says, given or at the usual place: its entries.  Without either, nothing
    is said. -/
def fileEntries? (files : FileTree) (path usualPath : Option String) :
    Option (List (String × Setting)) :=
  let entriesAt path := (files.readText path).toOption.bind Document.entries?
  match path, usualPath with
  | some path, _ => entriesAt path
  | none, some usual => if files.hasNode usual then entriesAt usual else some []
  | none, none => some []

theorem value?_of_file {files : FileTree} {path : String} (h : ofFile files path = .ok s) :
    ∃ entries, (files.readText path).toOption.bind Document.entries? = some entries ∧
      ∀ key, s.value? key = (entries.lookup key).or (value? {} key) := by
  unfold ofFile at h
  split at h
  · rename_i document hdocument
    unfold ofDocument at h
    split at h
    · rename_i hentries
      cases h
      obtain ⟨entries, hentries, hset⟩ := Option.bind_eq_some_iff.mp hentries
      refine ⟨entries, ?_, value?_foldlM (nodup_of_entries? hentries) hset⟩
      rw [hdocument]
      exact hentries
    · cases h
  · cases h

/-- **The file.** Its entries stand over the defaults. -/
theorem value?_of_files {files : FileTree} {path usualPath : Option String}
    (h : ofFiles files path usualPath = .ok s) :
    ∃ entries, fileEntries? files path usualPath = some entries ∧
      ∀ key, s.value? key = (entries.lookup key).or (value? {} key) := by
  unfold ofFiles at h
  unfold fileEntries?
  split at h
  · exact value?_of_file h
  · split at h
    · rename_i hnode
      simp only [hnode, if_true]
      exact value?_of_file h
    · rename_i hnode
      cases h
      exact ⟨[], by simp [hnode], fun _ => rfl⟩
  · cases h
    exact ⟨[], rfl, fun _ => rfl⟩

/-! ### The layers above the file -/

/-- What a layer says that has, it may be, a port and an address. -/
def said (port : Option UInt16) (address : Option String) : String → Option Setting
  | "port" => port.map fun port => .integer port.toNat
  | "bind_address" => address.map .text
  | _ => none

/-- What the surroundings say: a port that can be made out, and an address without the blanks
    around it. -/
def Surroundings.layer (around : Surroundings) : String → Option Setting :=
  said (around.port.bind fun text => portOfText? (trimBlanks text.toList))
    (around.address.map fun text => String.ofList (trimBlanks text.toList))

/-- What a layer says is put over the settings. -/
theorem value?_getD (s : Settings) (port : Option UInt16) (address : Option String) (key : String) :
    value? { s with port := port.getD s.port, bindAddress := address.getD s.bindAddress } key =
      (said port address key).or (s.value? key) := by
  unfold said
  split
  · cases port <;> rfl
  · cases address <;> rfl
  · rename_i hport haddress
    unfold value?
    split <;> first | rfl | exact absurd rfl hport | exact absurd rfl haddress

/-- **The surroundings.** If the port can be made out, what they say is put over the settings. -/
theorem override_eq (s : Settings) {around : Surroundings}
    (hport : ∀ text, around.port = some text →
      ∃ port, portOfText? (trimBlanks text.toList) = some port) :
    ∃ s', s.override around.port around.address = .ok s' ∧
      ∀ key, s'.value? key = (around.layer key).or (s.value? key) := by
  obtain ⟨portText, addressText, usualPath⟩ := around
  refine ⟨{ s with
    port := (portText.bind fun text => portOfText? (trimBlanks text.toList)).getD s.port
    bindAddress := (addressText.map fun text =>
      String.ofList (trimBlanks text.toList)).getD s.bindAddress }, ?_, value?_getD s _ _⟩
  cases portText with
  | none => cases addressText <;> rfl
  | some text =>
    obtain ⟨port, hgood⟩ := hport text rfl
    cases addressText <;> simp [override, overridePort, overrideAddress, hgood]

/-! ### The check -/

/-- The settings are checked for an address and three limits. -/
theorem check_eq_ok_iff : s.check = .ok () ↔
    (∃ ip, IpAddress.ofText? s.bindAddress = some ip) ∧ s.maxSessions ≠ 0 ∧ s.queueCapacity ≠ 0 ∧
      s.maxLineLength ≠ 0 := by
  unfold check socketAddress checkLimit
  cases IpAddress.ofText? s.bindAddress with
  | none => simp [bind, Except.bind]
  | some ip =>
    by_cases hsessions : s.maxSessions = 0 <;> by_cases hqueue : s.queueCapacity = 0 <;>
      by_cases hline : s.maxLineLength = 0 <;>
      simp [bind, Except.bind, hsessions, hqueue, hline]

/-- The address is checked first. -/
theorem check_of_no_address (h : IpAddress.ofText? s.bindAddress = none) :
    s.check = .error (.invalid "bind_address" s.bindAddress) := by
  simp [check, socketAddress, h, bind, Except.bind]

end Settings

namespace Arguments

open Settings

variable {a a' : Arguments} {files files' : FileTree} {around around' : Surroundings}
  {merged : Settings}

/-! ### A run -/

/-- What the arguments say. -/
def layer (a : Arguments) : String → Option Setting := said a.port a.address

/-- The value of the highest layer below the arguments that has one. -/
def lowerValue (a : Arguments) (files : FileTree) (around : Surroundings) (key : String) :
    Option Setting :=
  (around.layer key).or
    (((fileEntries? files a.settingsPath around.usualPath).bind fun entries =>
      entries.lookup key).or (value? {} key))

/-- **The value of the highest layer that has one**: the arguments, the surroundings, the file, the
    defaults. -/
def topValue (a : Arguments) (files : FileTree) (around : Surroundings) (key : String) :
    Option Setting :=
  (a.layer key).or (a.lowerValue files around key)

/-- The file holds settings, and the port in the surroundings is one. -/
structure Readable (a : Arguments) (files : FileTree) (around : Surroundings) : Prop where
  /-- There is no file, or a settings document in it. -/
  file : ∃ s, ofFiles files a.settingsPath around.usualPath = .ok s
  /-- There is no port in the surroundings, or a good one. -/
  port : ∀ text, around.port = some text →
    ∃ port, portOfText? (trimBlanks text.toList) = some port

/-- The value is the text of an address. -/
def IsAddress (v : Option Setting) : Prop :=
  ∃ text ip, v = some (.text text) ∧ IpAddress.ofText? text = some ip

/-- **The settings of a run.** Those below the arguments are checked, then those with the arguments
    over them. -/
theorem settings_eq (h : a.Readable files around) : ∃ lower : Settings,
    (∀ key, lower.value? key = a.lowerValue files around key) ∧
    (∀ key, (a.over lower).value? key = a.topValue files around key) ∧
    a.settings files around =
      match lower.check, (a.over lower).check with
      | .error e, _ => .error (.loading e)
      | .ok (), .error e => .error (.checking e)
      | .ok (), .ok () => .ok (a.over lower) := by
  obtain ⟨file, hfile⟩ := h.file
  obtain ⟨entries, hentries, hvalues⟩ := value?_of_files hfile
  obtain ⟨lower, hlower, hlayer⟩ := override_eq file h.port
  have hbelow : ∀ key, lower.value? key = a.lowerValue files around key := by
    intro key
    rw [hlayer, hvalues, lowerValue, hentries]
    rfl
  refine ⟨lower, hbelow, fun key => ?_, ?_⟩
  · rw [Arguments.over, value?_getD, hbelow]
    rfl
  · have hload : load files a.settingsPath around = do lower.check; return lower := by
      simp only [load, hfile, bind, Except.bind, hlower]
    unfold settings
    rw [hload]
    cases hcheck : lower.check with
    | error e => rfl
    | ok _ =>
      dsimp only [bind, Except.bind, pure, Except.pure]
      cases (a.over lower).check <;> rfl

/-- The settings below the arguments fall short of those with the arguments over them in nothing
    but the address. -/
theorem check_of_over {lower : Settings} (h : (a.over lower).check = .ok ()) :
    lower.check = .ok () ↔ ∃ ip, IpAddress.ofText? lower.bindAddress = some ip := by
  rw [check_eq_ok_iff] at h ⊢
  exact and_iff_left h.2

/-- **Settings in layers**, for a run. -/
structure Layered (a : Arguments) (files : FileTree) (around : Surroundings) (merged : Settings) :
    Prop where
  /-- Each entry has the value of the highest layer that has one. -/
  top : ∀ key, merged.value? key = a.topValue files around key
  /-- The run has these settings if they pass the check, and if there is an address below the
      arguments. -/
  accepted : ∀ s, a.settings files around = .ok s ↔
    s = merged ∧ merged.check = .ok () ∧ IsAddress (a.lowerValue files around "bind_address")
  /-- If there is none, it has no settings, and the value that is no address is told. -/
  spoiled : merged.check = .ok () → ¬ IsAddress (a.lowerValue files around "bind_address") →
    ∃ text, a.lowerValue files around "bind_address" = some (.text text) ∧
      a.settings files around = .error (.loading (.invalid "bind_address" text))
  /-- Without an address in the arguments the check of the settings decides. -/
  plain : a.address = none →
    ∀ s, a.settings files around = .ok s ↔ s = merged ∧ merged.check = .ok ()
  /-- Runs whose highest values are the same have the same settings, whatever stands below, if
      there is an address below the arguments of both. -/
  settled : ∀ (a' : Arguments) (files' : FileTree) (around' : Surroundings),
    a'.Readable files' around' →
    (∀ key, a'.topValue files' around' key = a.topValue files around key) →
    IsAddress (a.lowerValue files around "bind_address") →
    IsAddress (a'.lowerValue files' around' "bind_address") →
    ∀ s, a'.settings files' around' = .ok s ↔ a.settings files around = .ok s

theorem exists_accepted (h : a.Readable files around) : ∃ merged : Settings,
    (∀ key, merged.value? key = a.topValue files around key) ∧
    (∀ s, a.settings files around = .ok s ↔
      s = merged ∧ merged.check = .ok () ∧ IsAddress (a.lowerValue files around "bind_address")) ∧
    (merged.check = .ok () → ¬ IsAddress (a.lowerValue files around "bind_address") →
      ∃ text, a.lowerValue files around "bind_address" = some (.text text) ∧
        a.settings files around = .error (.loading (.invalid "bind_address" text))) := by
  obtain ⟨lower, hlower, hmerged, hsettings⟩ := settings_eq h
  have hbelow : a.lowerValue files around "bind_address" = some (.text lower.bindAddress) :=
    (hlower "bind_address").symm
  have haddress : IsAddress (a.lowerValue files around "bind_address") ↔
      ∃ ip, IpAddress.ofText? lower.bindAddress = some ip := by
    rw [hbelow]
    constructor
    · rintro ⟨_, ip, ⟨⟩, hip⟩
      exact ⟨ip, hip⟩
    · rintro ⟨ip, hip⟩
      exact ⟨_, ip, rfl, hip⟩
  refine ⟨a.over lower, hmerged, fun s => ?_, fun hcheck hnone => ⟨_, hbelow, ?_⟩⟩
  · rw [hsettings]
    cases hcheck : (a.over lower).check with
    | ok _ =>
      rw [haddress, ← check_of_over hcheck]
      cases hlow : lower.check <;> simp [eq_comm]
    | error e => cases hlow : lower.check <;> simp
  · rw [haddress, not_exists] at hnone
    have hlow := check_of_no_address (Option.eq_none_iff_forall_ne_some.mpr hnone)
    rw [hsettings, hlow]

/-- **Every run** whose file and whose port in the surroundings can be made out. -/
theorem settings_by_layers (h : a.Readable files around) :
    ∃ merged, a.Layered files around merged := by
  obtain ⟨merged, htop, haccepted, hspoiled⟩ := exists_accepted h
  refine ⟨merged, htop, haccepted, hspoiled, fun hnone s => ?_, ?_⟩
  · rw [haccepted]
    refine and_congr_right fun _ => and_iff_left_of_imp fun hcheck => ?_
    -- The address that is checked at last is the one below.
    have hbelow : a.lowerValue files around "bind_address" = some (.text merged.bindAddress) := by
      have := htop "bind_address"
      rw [topValue, layer, hnone] at this
      exact this.symm
    obtain ⟨⟨ip, hip⟩, -⟩ := check_eq_ok_iff.mp hcheck
    exact ⟨_, ip, hbelow, hip⟩
  · intro a' files' around' h' hsame haddress haddress' s
    obtain ⟨merged', htop', haccepted', -⟩ := exists_accepted h'
    have hmerged : merged' = merged := eq_of_value? (funext fun key => by
      rw [htop', hsame, htop])
    rw [haccepted, haccepted', hmerged, and_iff_left haddress, and_iff_left haddress']

/-- A run whose arguments name a port and an address. -/
def overridingRun : Arguments := { port := some 0, address := some "127.0.0.1" }

theorem settings_by_layers_overridingRun :
    overridingRun.Readable .empty { port := some " 80", address := some "::1 " } ∧
      ∃ merged,
        overridingRun.Layered .empty { port := some " 80", address := some "::1 " } merged :=
  have h : overridingRun.Readable .empty { port := some " 80", address := some "::1 " } :=
    ⟨⟨{}, rfl⟩, by rintro _ ⟨⟩; exact ⟨80, by decide⟩⟩
  ⟨h, settings_by_layers h⟩

/-- The check of the settings does not decide alone: what stands in the place of an address spoils
    them, though the arguments name one. -/
theorem overridden_address_decides :
    ¬ ∀ (a : Arguments) (files : FileTree) (around : Surroundings) (merged : Settings),
      a.Readable files around → (∀ key, merged.value? key = a.topValue files around key) →
      ∀ s, a.settings files around = .ok s ↔ s = merged ∧ merged.check = .ok () := by
  intro h
  have hreadable : overridingRun.Readable .empty { address := some "bad" } := ⟨⟨{}, rfl⟩, nofun⟩
  have htrim : String.ofList (trimBlanks "bad".toList) = "bad" := by decide
  have htop : ∀ key, value? { port := 0, bindAddress := "127.0.0.1" } key =
      overridingRun.topValue .empty { address := some "bad" } key := by
    intro key
    calc value? { port := 0, bindAddress := "127.0.0.1" } key
        = (said (some 0) (some "127.0.0.1") key).or (value? { bindAddress := "bad" } key) :=
          value?_getD { bindAddress := "bad" } (some 0) (some "127.0.0.1") key
      _ = (said (some 0) (some "127.0.0.1") key).or
            ((said none (some "bad") key).or (value? {} key)) :=
          congrArg _ (value?_getD {} none (some "bad") key)
      _ = overridingRun.topValue .empty { address := some "bad" } key := by
          rw [topValue, lowerValue, Surroundings.layer, Option.map_some, htrim]
          rfl
  have hgood : check { port := 0, bindAddress := "127.0.0.1" } = .ok () :=
    check_eq_ok_iff.mpr ⟨⟨.v4 127 0 0 1, by decide +kernel⟩, by decide, by decide, by decide⟩
  have hsettings := (h _ _ _ _ hreadable htop _).mpr ⟨rfl, hgood⟩
  have hspoilt : overridingRun.settings .empty { address := some "bad" } =
      .error (.loading (.invalid "bind_address" "bad")) := by decide +kernel
  rw [hspoilt] at hsettings
  cases hsettings

end Arguments

end Reckoner
