import ComponentLowering.CommandLine
import ComponentLowering.Proofs.Fields
import ComponentLowering.Proofs.Skipping
/-!
Settings as a format of JSON values, said without a reader, and the settings of a run. The texts of
the values that stand for settings are read as those settings, and no others are read
(`Config.ofText_eq_ok`). A run goes by the settings in the file that it is asked to take or in
`compc.json`, by none if there is neither, and cannot start if there are none in the file
(`loadConfig_eq_ok`, `loadConfig_eq_error`).
-/

namespace ComponentLowering

open Json Json.Reader

/-! ### Truth values -/

def IsBool (value : Json) (b : Bool) : Prop :=
  value = .bool b

namespace Json

def decodeBool : Json → Except ReadError.Cause Bool
  | .bool b => .ok b
  | value => .error (.unsuitable (.invalidType value.found .bool))

theorem decodeBool_eq_ok {value : Json} {b : Bool} : decodeBool value = .ok b ↔ IsBool value b := by
  cases value <;> simp [decodeBool, IsBool]

theorem lead_eq_t {value : Json} (h : value.isWhole) : value.lead = 't' ↔ value = .bool true := by
  cases value with
  | bool b => cases b <;> simp [lead]
  | num number => simp [lead_num_ne h (c := 't') (by decide)]
  | _ => simp [lead]

theorem lead_eq_f {value : Json} (h : value.isWhole) : value.lead = 'f' ↔ value = .bool false := by
  cases value with
  | bool b => cases b <;> simp [lead]
  | num number => simp [lead_num_ne h (c := 'f') (by decide)]
  | _ => simp [lead]

theorem Reader.reads_bool {v : Json} (h : v.isWhole) : Reads bool v (decodeBool v) := by
  refine reads_ahead h ?_
  by_cases htrue : v.lead = 't'
  · obtain rfl := (lead_eq_t h).mp htrue
    intro layout level bound after hafter hbound
    simp [lead, write, word, answer_ite, decodeBool]
  · by_cases hfalse : v.lead = 'f'
    · obtain rfl := (lead_eq_f h).mp hfalse
      intro layout level bound after hafter hbound
      simp [lead, write, word, answer_ite, decodeBool]
    · have hother : decodeBool v = .error (.unsuitable (.invalidType v.found .bool)) := by
        cases v with
        | bool b => cases b <;> simp [lead] at htrue hfalse
        | _ => rfl
      rw [hother]
      have hread := (reads_mistyped (α := Bool) h .bool).here
      generalize v.lead = c at htrue hfalse ⊢
      split
      · exact absurd rfl htrue
      · exact absurd rfl hfalse
      · exact hread

end Json

namespace Config

/-! ### Format -/

/-- Settings: by their names, where each may be missing, or all of them in order. What is missing is
left open, as `null` is. -/
inductive Loads : Json → Config → Prop
  | object {members : List (String × Json)} {logLevel : Option (Option Level)}
      {emitTree warningsAsErrors : Option (Option Bool)} :
      Optional (OrNull Names) "logLevel" members logLevel →
      Optional (OrNull IsBool) "emitTree" members emitTree →
      Optional (OrNull IsBool) "warningsAsErrors" members warningsAsErrors →
      Loads (.obj members) ⟨logLevel.join, emitTree.join, warningsAsErrors.join⟩
  | array {first second third : Json} {config : Config} :
      OrNull Names first config.logLevel → OrNull IsBool second config.emitTree →
      OrNull IsBool third config.warningsAsErrors →
      Loads (.arr [first, second, third]) config

/-- Warnings count where the settings say so by name, and once. -/
theorem Loads.failsOnWarnings {members : List (String × Json)} {config : Config}
    (h : Loads (.obj members) config) :
    config.failsOnWarnings = true ↔ valuesOf "warningsAsErrors" members = [.bool true] := by
  cases h with
  | @object _ logLevel emitTree warningsAsErrors hlogLevel hemitTree hwarnings =>
      cases warningsAsErrors with
      | none =>
          have hnone : valuesOf "warningsAsErrors" members = [] := hwarnings
          simp [hnone, Config.failsOnWarnings]
      | some found =>
          obtain ⟨value, hvalues, hload⟩ := hwarnings
          cases found with
          | none =>
              have hnull : value = .null := hload
              simp [hvalues, hnull, Config.failsOnWarnings]
          | some warns =>
              have hbool : value = .bool warns := hload.2
              simp [hvalues, hbool, Config.failsOnWarnings]

/-! ### Decoding -/

def Draft.decodeMember (depth : Nat) (draft : Draft) (m : String × Json) :
    Except ReadError.Cause Draft := do
  match m.1 with
  | "logLevel" =>
    return { draft with
      logLevel := ← decodeOnce m.1 draft.logLevel (decodeOptional (decodeVariant depth) m.2) }
  | "emitTree" =>
    return { draft with
      emitTree := ← decodeOnce m.1 draft.emitTree (decodeOptional decodeBool m.2) }
  | "warningsAsErrors" =>
    return { draft with
      warningsAsErrors := ← decodeOnce m.1 draft.warningsAsErrors (decodeOptional decodeBool m.2) }
  | _ => return draft

def decodeElements (depth : Nat) : List Json → Except ReadError.Cause Config :=
  decodeField form 0 (decodeOptional (decodeVariant depth)) fun logLevel =>
  decodeField form 1 (decodeOptional decodeBool) fun emitTree =>
  decodeField form 2 (decodeOptional decodeBool) fun warningsAsErrors =>
  decodeEnd ⟨logLevel, emitTree, warningsAsErrors⟩

def decode : Nat → Json → Except ReadError.Cause Config :=
  decodeRecord form
    (fun depth members => do return (← members.foldlM (Draft.decodeMember depth) {}).complete)
    decodeElements

theorem readsMember (depth : Nat) {m : String × Json} (h : m.2.isWhole) :
    ReadsMember (Draft.readMember depth) (Draft.decodeMember depth) m := by
  obtain ⟨key, value⟩ := m
  intro draft layout level bound blanks after hblanks hafter hbound
  have honce {α : Type} {item : Reader α} {answer : Except ReadError.Cause α}
      (hitem : Reads item value answer) (before : Option α) :=
    answer_once hitem key before layout level bound hblanks hafter hbound
  have hskip := reads_skip h layout level bound blanks after hblanks hafter hbound
  have hlevel := honce (reads_optional h (reads_variant (α := Level) h depth))
  have hbool := honce (reads_optional h (reads_bool h))
  unfold Draft.readMember Draft.decodeMember
  dsimp only at h hbound hskip ⊢
  split
  case h_4 => simp [answer_colon, hskip]
  all_goals simp [hlevel, hbool]

theorem readsElements (depth : Nat) {elements : List Json}
    (h : ∀ element ∈ elements, element.isWhole) :
    ReadsElements (Config.readElements depth) true elements (decodeElements depth elements) := by
  refine readsElements_field rfl h (fun h => reads_optional h (reads_variant h depth)) ?_
  intro logLevel elements h
  refine readsElements_field rfl h (fun h => reads_optional h (reads_bool h)) ?_
  intro emitTree elements h
  refine readsElements_field rfl h (fun h => reads_optional h (reads_bool h)) ?_
  intro warningsAsErrors elements h
  exact readsElements_closeArray _ h

theorem reads_read (depth : Nat) {v : Json} (h : v.isWhole) :
    Reads (Config.read depth) v (decode depth v) := by
  refine reads_record h ?_ ?_
  · rintro depth members rfl
    exact readsMembers_complete (isWhole_obj h) (readsMember depth) (fun _ _ _ => rfl) {}
  · rintro depth elements rfl
    exact readsElements depth (isWhole_arr h)

/-! ### Acceptance -/

theorem decodeLevel_eq_ok {limit : Nat} {value : Json} {level : Option Level} :
    decodeOptional (decodeVariant (limit + 1)) value = .ok level ↔ OrNull Names value level :=
  decodeOptional_eq_ok decodeVariant_succ_eq_ok

theorem decodeFlag_eq_ok {value : Json} {flag : Option Bool} :
    decodeOptional decodeBool value = .ok flag ↔ OrNull IsBool value flag :=
  decodeOptional_eq_ok decodeBool_eq_ok

theorem foldlM_eq_ok {limit : Nat} {members : List (String × Json)} {draft after : Draft} :
    members.foldlM (Draft.decodeMember (limit + 1)) draft = .ok after ↔
      Filled (OrNull Names) "logLevel" draft.logLevel members after.logLevel ∧
      Filled (OrNull IsBool) "emitTree" draft.emitTree members after.emitTree ∧
      Filled (OrNull IsBool) "warningsAsErrors" draft.warningsAsErrors members
        after.warningsAsErrors := by
  induction members generalizing draft with
  | nil => cases draft; cases after; simp [Filled]
  | cons m rest ih =>
      obtain ⟨key, value⟩ := m
      simp only [List.foldlM_cons, bind_eq_ok, ih, Filled]
      unfold Draft.decodeMember
      dsimp only
      split
      all_goals
        simp [map_eq_ok, decodeOnce_eq_ok, decodeLevel_eq_ok, decodeFlag_eq_ok]
        grind

theorem decode_eq_ok {limit : Nat} {value : Json} {config : Config} :
    decode (limit + 2) value = .ok config ↔ Loads value config := by
  cases value with
  | obj members =>
      simp only [decode, decodeRecord, bind_eq_ok, foldlM_eq_ok, filled_none, pure_eq_ok]
      constructor
      · rintro ⟨_, ⟨hlogLevel, hemitTree, hwarnings⟩, ⟨⟩⟩
        exact .object hlogLevel hemitTree hwarnings
      · intro hload
        cases hload with
        | object hlogLevel hemitTree hwarnings =>
            exact ⟨⟨_, _, _⟩, ⟨hlogLevel, hemitTree, hwarnings⟩, rfl⟩
  | arr elements =>
      simp only [decode, decodeRecord, decodeElements, decodeField_eq_ok, decodeEnd_eq_ok,
        decodeLevel_eq_ok, decodeFlag_eq_ok]
      constructor
      · rintro ⟨_, _, rfl, _, hlogLevel, _, _, rfl, _, hemitTree, _, _, rfl, _, hwarnings, rfl, rfl⟩
        exact .array hlogLevel hemitTree hwarnings
      · intro hload
        cases hload with
        | array hlogLevel hemitTree hwarnings =>
            exact ⟨_, _, rfl, _, hlogLevel, _, _, rfl, _, hemitTree, _, _, rfl, _, hwarnings, rfl,
              rfl⟩
  | _ =>
      constructor
      · intro hread
        cases hread
      · intro hload
        cases hload

/-- Of the texts of values, those of settings are read, and as what they stand for. -/
theorem ofText_eq_ok {value : Json} (h : value.isWhole) (layout : Layout) {config : Config} :
    ofText (value.render layout) = .ok config ↔ Loads value config := by
  have hread : (ofText (value.render layout)).mapError ReadError.cause = decode (125 + 2) value :=
    run_render (reads_read Reader.depthLimit h) layout
  rw [← decode_eq_ok, ← hread]
  cases ofText (value.render layout) <;> simp [Except.mapError]

end Config

/-! ### Settings of a run -/

namespace CommandLine

/-- The file that a run takes its settings from: the one that it is asked to take, or else
`compc.json` if there is one. -/
inductive SettledBy (files : Files) (arguments : Arguments) : FileName → Prop
  | asked {name : String} :
      arguments.config = some name → SettledBy files arguments ⟨name⟩
  | standard :
      arguments.config = none → files.contains ⟨"compc.json"⟩ = true →
      SettledBy files arguments ⟨"compc.json"⟩

/-- The settings that a run starts from: those in the file, or none if there is no file. -/
inductive Settings (files : Files) (arguments : Arguments) : Config → Prop
  | inFile {name : FileName} {text : String} {config : Config} :
      SettledBy files arguments name → files.read name = .ok text →
      Config.ofText text = .ok config → Settings files arguments config
  | absent :
      (∀ name, ¬SettledBy files arguments name) → Settings files arguments {}

/-- What keeps a run from having settings: a file that cannot be read or holds none. -/
inductive Unsettled (files : Files) (arguments : Arguments) : Prop
  | unreadable {name : FileName} {error : FileError} :
      SettledBy files arguments name → files.read name = .error error → Unsettled files arguments
  | unusable {name : FileName} {text : String} {error : ReadError} :
      SettledBy files arguments name → files.read name = .ok text →
      Config.ofText text = .error error → Unsettled files arguments

section

variable {files : Files} {arguments : Arguments}

theorem settledBy_iff {name : FileName} :
    SettledBy files arguments name ↔ settingsFile files arguments = some name := by
  unfold settingsFile
  constructor
  · rintro (hasked | ⟨hnone, hthere⟩)
    · rw [hasked]
    · rw [hnone]
      exact if_pos hthere
  · intro h
    cases hconfig : arguments.config with
    | some asked =>
        rw [hconfig] at h
        obtain rfl := Option.some.inj h
        exact .asked hconfig
    | none =>
        rw [hconfig] at h
        by_cases hthere : files.contains standardConfig = true
        · rw [if_pos hthere] at h
          obtain rfl := Option.some.inj h
          exact .standard hconfig hthere
        · rw [if_neg hthere] at h
          cases h

theorem loadConfig_of_settings {config : Config} (h : Settings files arguments config) :
    loadConfig files arguments = .ok config := by
  cases h with
  | inFile hname hread htext =>
      rw [loadConfig, settledBy_iff.mp hname]
      simp only [Config.load, hread, htext]
      rfl
  | absent hnone =>
      have hfile : settingsFile files arguments = none :=
        Option.eq_none_iff_forall_ne_some.mpr fun name hname => hnone name (settledBy_iff.mpr hname)
      rw [loadConfig, hfile]

theorem loadConfig_of_unsettled (h : Unsettled files arguments) :
    ∃ error, loadConfig files arguments = .error error := by
  cases h with
  | unreadable hname hread =>
      rw [loadConfig, settledBy_iff.mp hname]
      simp only [Config.load, hread]
      exact ⟨_, rfl⟩
  | unusable hname hread htext =>
      rw [loadConfig, settledBy_iff.mp hname]
      simp only [Config.load, hread, htext]
      exact ⟨_, rfl⟩

/-- A run has settings, or something keeps it from having them. -/
theorem settings_or_unsettled :
    (∃ config, Settings files arguments config) ∨ Unsettled files arguments := by
  by_cases hnone : ∀ name, ¬SettledBy files arguments name
  · exact .inl ⟨{}, .absent hnone⟩
  · obtain ⟨name, hname⟩ := not_forall_not.mp hnone
    cases hread : files.read name with
    | error error => exact .inr (.unreadable hname hread)
    | ok text =>
        cases htext : Config.ofText text with
        | error error => exact .inr (.unusable hname hread htext)
        | ok config => exact .inl ⟨config, .inFile hname hread htext⟩

theorem loadConfig_eq_ok {config : Config} :
    loadConfig files arguments = .ok config ↔ Settings files arguments config := by
  refine ⟨?_, loadConfig_of_settings⟩
  intro h
  rcases settings_or_unsettled with ⟨loaded, hsettings⟩ | hunsettled
  · obtain rfl := Except.ok.inj (h.symm.trans (loadConfig_of_settings hsettings))
    exact hsettings
  · obtain ⟨error, herror⟩ := loadConfig_of_unsettled hunsettled
    rw [h] at herror
    cases herror

theorem loadConfig_eq_error :
    (∃ error, loadConfig files arguments = .error error) ↔ Unsettled files arguments := by
  refine ⟨?_, loadConfig_of_unsettled⟩
  rintro ⟨error, herror⟩
  rcases settings_or_unsettled with ⟨config, hsettings⟩ | hunsettled
  · rw [loadConfig_of_settings hsettings] at herror
    cases herror
  · exact hunsettled

end

end CommandLine

end ComponentLowering
