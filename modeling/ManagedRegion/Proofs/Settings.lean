import ManagedRegion.Proofs.Lines
import ManagedRegion.Settings

/-!
# Settings: what is written is read, and judged

Settings are written as a table of two texts and an integer. Of the format that the table is written
and read in nothing is assumed but that it reads back tables of texts and integers. Whatever the
texts are, the document is then read as the same settings, with the delay in whole milliseconds
(`parse_of_print?`); what becomes of them is up to the judgement on their values alone. So settings
that a document can hold are written and read back unchanged where they are sound, and refused by
the names of the offending settings where they are not (**`document_roundTrip`**).
-/

namespace ManagedRegion.Settings

open Toml

variable {format : Format} {s : Settings} {text : String}

/-! ## The table -/

/-- The settings are a table of texts and integers, given that a document can hold the delay. -/
theorem isPlain_entries (h : s.debounceMillis < integerLimit) : s.entries.IsPlain where
  nodup_keys := by
    change ["inventory_path", "debounce_ms", "store_path"].Nodup
    decide
  isPlain_of_mem entry hentry := by
    have hlow : -(integerLimit : Int) ≤ (s.debounceMillis : Int) := by omega
    have hhigh : (s.debounceMillis : Int) < integerLimit := Int.ofNat_lt.mpr h
    rw [entries, List.mem_cons, List.mem_cons, List.mem_singleton] at hentry
    rcases hentry with rfl | rfl | rfl
    · trivial
    · exact ⟨hlow, hhigh⟩
    · trivial

/-- Settings are read from the values under their keys, wherever these stand in a table. -/
theorem ofEntries?_congr {first second : Entries} (h : ∀ key, first.get? key = second.get? key) :
    ofEntries? first = ofEntries? second := by
  simp only [ofEntries?, textOr?, delayOr?, h]

/-- The settings as a document gives them: with the delay in whole milliseconds. -/
def rounded (s : Settings) : Settings :=
  { s with debounce := nanosOfMillis s.debounceMillis }

/-- The table is read as the settings. -/
theorem ofEntries?_entries (s : Settings) : ofEntries? s.entries = some s.rounded := by
  simp [ofEntries?, textOr?, delayOr?, entries, Entries.get?, List.lookup_cons, rounded]

/-- **A document that is written is read as the settings in it**, and they are judged. -/
theorem parse_of_print? (hformat : format.ReadsBack) (h : s.debounceMillis < integerLimit)
    (htext : s.print? format = some text) : parse format text = s.rounded.validate := by
  obtain ⟨read, hread, hsame⟩ := hformat.parse?_of_print? (isPlain_entries h) htext
  rw [parse, hread, Option.bind_some, ofEntries?_congr hsame, ofEntries?_entries]

/-! ## Delays of whole milliseconds -/

/-- A delay of whole milliseconds that a document can hold is written as it is. -/
theorem rounded_eq_self (hwhole : 1000000 ∣ s.debounce)
    (hlimit : s.debounce < nanosOfMillis (1 <<< 63)) :
    s.debounceMillis < integerLimit ∧ s.rounded = s := by
  obtain ⟨millis, hmillis⟩ := hwhole
  have hbound : millis < 1 <<< 63 := by
    unfold nanosOfMillis at hlimit
    omega
  have hsize : 1 <<< 63 < UInt64.size := by decide
  have hkept : s.debounceMillis = millis := by
    rw [debounceMillis, hmillis, Nat.mul_div_cancel_left _ (by decide), Nat.mod_eq_of_lt (by omega)]
  refine ⟨hkept ▸ hbound, ?_⟩
  rw [rounded, hkept, nanosOfMillis, Nat.mul_comm, ← hmillis]

/-! ## Faults -/

/-- The delay is at least a millisecond and at most a minute. -/
def HasSoundDebounce (s : Settings) : Prop :=
  nanosOfMillis 1 ≤ s.debounce ∧ s.debounce ≤ nanosOfMillis 60000

instance : Decidable s.HasSoundDebounce :=
  inferInstanceAs (Decidable (_ ∧ _))

/-- The names of the settings with faults: those of a delay out of range and of an inventory path
that is empty. -/
inductive Offends (s : Settings) : String → Prop where
  /-- The delay is out of range. -/
  | debounce (h : ¬s.HasSoundDebounce) : Offends s "debounce"
  /-- The inventory path is empty. -/
  | inventoryPath (h : s.inventoryPath = "") : Offends s "inventory_path"

/-- For whole milliseconds the least delay but none is a millisecond. -/
theorem hasDebounce_iff (hwhole : 1000000 ∣ s.debounce) :
    s.hasDebounce = true ↔ s.HasSoundDebounce := by
  obtain ⟨millis, hmillis⟩ := hwhole
  rw [hasDebounce, Bool.and_eq_true, decide_eq_true_iff, decide_eq_true_iff, HasSoundDebounce,
    maxDebounce, nanosOfMillis, nanosOfMillis]
  omega

/-- The faults are those of the delay, then those of the inventory path. -/
theorem faults_map_field (hwhole : 1000000 ∣ s.debounce) :
    s.faults.map Fault.field =
      (if s.HasSoundDebounce then [] else ["debounce"]) ++
        if s.inventoryPath = "" then ["inventory_path"] else [] := by
  have hdebounce : s.hasDebounce = decide s.HasSoundDebounce := by
    rw [Bool.eq_iff_iff, hasDebounce_iff hwhole, decide_eq_true_iff]
  rw [faults, hdebounce, List.map_append]
  by_cases hsound : s.HasSoundDebounce <;> by_cases hpath : s.inventoryPath = "" <;>
    simp [hsound, hpath, Fault.field]

/-- The offending settings are the ones with faults. -/
theorem mem_faults_field_iff (hwhole : 1000000 ∣ s.debounce) (field : String) :
    field ∈ s.faults.map Fault.field ↔ s.Offends field := by
  rw [faults_map_field hwhole, List.mem_append]
  constructor
  · rintro (hmem | hmem)
    · split at hmem
      next => cases hmem
      next hsound =>
        obtain rfl := List.mem_singleton.1 hmem
        exact .debounce hsound
    · split at hmem
      next hpath =>
        obtain rfl := List.mem_singleton.1 hmem
        exact .inventoryPath hpath
      next => cases hmem
  · intro hoffends
    cases hoffends with
    | debounce hsound => exact .inl (by simp [hsound])
    | inventoryPath hpath => exact .inr (by simp [hpath])

/-- No setting is named twice. -/
theorem nodup_faults_field (hwhole : 1000000 ∣ s.debounce) :
    (s.faults.map Fault.field).Nodup := by
  rw [faults_map_field hwhole]
  split <;> split <;> decide

/-- There are no faults exactly if the delay is in range and there is an inventory path. -/
theorem faults_eq_nil_iff (hwhole : 1000000 ∣ s.debounce) :
    s.faults = [] ↔ s.HasSoundDebounce ∧ s.inventoryPath ≠ "" := by
  rw [← List.map_eq_nil_iff (f := Fault.field), faults_map_field hwhole, List.append_eq_nil_iff]
  simp

/-- Settings without faults pass. -/
theorem validate_of_faults_eq_nil (h : s.faults = []) : s.validate = .ok s := by
  rw [validate, h]
  rfl

/-- Settings with faults are refused with all of them. -/
theorem validate_of_faults_ne_nil (h : s.faults ≠ []) :
    s.validate = .error (.invalid s.faults) := by
  rw [validate, if_neg (by simpa using h)]

/-! ## The round trip -/

/-- **Settings that are written are read back or refused by name**, whatever their texts are, in
every format that reads back tables of texts and integers: with a delay of whole milliseconds that a
document can hold, they are read back unchanged if the delay is in range and there is an inventory
path, and else refused with exactly the settings that offend, each named once. -/
theorem document_roundTrip (format : Format) (hformat : format.ReadsBack) (s : Settings)
    (hwhole : 1000000 ∣ s.debounce) (hlimit : s.debounce < nanosOfMillis (1 <<< 63)) :
    ∃ text, s.print? format = some text ∧
      (s.HasSoundDebounce ∧ s.inventoryPath ≠ "" → parse format text = .ok s) ∧
      (¬(s.HasSoundDebounce ∧ s.inventoryPath ≠ "") →
        ∃ faults, parse format text = .error (.invalid faults) ∧
          (faults.map Fault.field).Nodup ∧
          ∀ field, field ∈ faults.map Fault.field ↔ s.Offends field) := by
  obtain ⟨hheld, hrounded⟩ := rounded_eq_self hwhole hlimit
  obtain ⟨text, htext⟩ := hformat.exists_print? (isPlain_entries hheld)
  have hread : parse format text = s.validate := by
    rw [parse_of_print? hformat hheld htext, hrounded]
  refine ⟨text, htext, fun hsound => ?_, fun hfaulty => ⟨s.faults, ?_, ?_, ?_⟩⟩
  · rw [hread, validate_of_faults_eq_nil ((faults_eq_nil_iff hwhole).2 hsound)]
  · rw [hread, validate_of_faults_ne_nil (mt (faults_eq_nil_iff hwhole).1 hfaulty)]
  · exact nodup_faults_field hwhole
  · exact mem_faults_field_iff hwhole

/-- In the documents of the program a quarter of a second is read back, with paths of all sorts of
quotes, a backslash, a newline and a control character; a minute and a millisecond is refused along
with an empty inventory path. -/
theorem document_roundTrip_awkward :
    let awkward : Settings := ⟨"/a \"b\" 'c' \\\n\x01", 250000000, "'''"⟩
    let faulty : Settings := ⟨"/a \"b\" 'c' \\\n\x01", 60001000000, ""⟩
    (∃ text, awkward.print? Toml.format = some text ∧ parse Toml.format text = .ok awkward) ∧
      ∃ text faults, faulty.print? Toml.format = some text ∧
        parse Toml.format text = .error (.invalid faults) ∧
        "debounce" ∈ faults.map Fault.field ∧ "inventory_path" ∈ faults.map Fault.field := by
  intro awkward faulty
  have hsound : awkward.HasSoundDebounce ∧ awkward.inventoryPath ≠ "" := by decide
  have hlate : ¬faulty.HasSoundDebounce := by decide
  obtain ⟨text, hdocument, hread, -⟩ :=
    document_roundTrip Toml.format format_readsBack awkward (by decide) (by decide)
  obtain ⟨text', hdocument', -, hrefused⟩ :=
    document_roundTrip Toml.format format_readsBack faulty (by decide) (by decide)
  obtain ⟨faults, hfaults, -, hfields⟩ := hrefused (fun h => hlate h.1)
  exact ⟨⟨text, hdocument, hread hsound⟩, text', faults, hdocument', hfaults,
    (hfields _).2 (.debounce hlate), (hfields _).2 (.inventoryPath rfl)⟩

end ManagedRegion.Settings
