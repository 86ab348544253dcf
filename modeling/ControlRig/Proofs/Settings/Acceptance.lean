import ControlRig.Proofs.Param.Spelling
import ControlRig.Proofs.Text.Trimming
import ControlRig.Settings

/-!
# Which settings are accepted

What a key is worth is decided in two places that do not know of one another. The check of settings
trims the slashes at the ends of a key and refuses it if nothing is left; the tree cuts a key at its
slashes, and has no path for it if all the parts are empty. **Both come to the same for every key**
(`Settings.isUsableKey_iff`), because either way nothing is left exactly if there are only slashes.

So a key is refused where it would serve for nothing, and only there. Settings that are accepted
leave one way in which a text that is published can fail, and that lies in the tree and not in the
key.
-/

namespace ControlRig

/-! ## Keys that can be used -/

theorem Settings.isUsableKey_eq_false_iff {key : String} :
    isUsableKey key = false ↔ ∀ c ∈ key.toList, c = '/' := by
  have htrimmed : trimSlashes key = "" ↔ ∀ c ∈ key.toList, c = '/' := by
    rw [trimSlashes, String.ofList_eq_empty_iff, Text.dropEndsWhile_eq_nil_iff]
    simp only [decide_eq_true_eq]
  rw [isUsableKey, decide_eq_false_iff_not, Decidable.not_not, htrimmed]

/-- **A key can be used, as the settings see it, exactly if it has a path.** -/
theorem Settings.isUsableKey_iff {key : String} :
    isUsableKey key = true ↔ Param.segments key ≠ [] := by
  rw [ne_eq, Param.segments_eq_nil_iff, ← isUsableKey_eq_false_iff, Bool.not_eq_false]

/-- A key of more than slashes has a path. -/
theorem Param.segments_ne_nil {key : String} (h : Settings.isUsableKey key = true) :
    segments key ≠ [] :=
  Settings.isUsableKey_iff.1 h

namespace Settings

variable {s : Settings}

/-! ## The check -/

/-- Nothing is zero that something is divided or bounded by. -/
structure NothingZero (s : Settings) : Prop where
  requestTimeoutMs : 0 < s.requestTimeoutMs
  tickHz : 0 < s.monitor.tickHz
  healthCheckEvery : 0 < s.monitor.healthCheckEvery
  rateHz : 0 < s.verification.rateHz
  maxWorkers : 0 < s.verification.maxWorkers

theorem problem_eq_none_iff : s.problem = none ↔
    isUsableKey s.catalogKey = true ∧ isUsableKey s.statusKey = true ∧ s.NothingZero := by
  grind [problem, NothingZero]

theorem problem_eq_emptyCatalogKey_iff :
    s.problem = some .emptyCatalogKey ↔ isUsableKey s.catalogKey = false := by
  grind [problem]

theorem problem_eq_emptyStatusKey_iff : s.problem = some .emptyStatusKey ↔
    isUsableKey s.catalogKey = true ∧ isUsableKey s.statusKey = false := by
  grind [problem]

theorem statusKey_usable (h : s.problem = none) : isUsableKey s.statusKey = true :=
  (problem_eq_none_iff.1 h).2.1

/-- Settings that are accepted have the monitor check its health every so many passes, and not every
none. -/
theorem healthCheckEvery_pos (accepted : s.problem = none) : 0 < s.monitor.healthCheckEvery :=
  (problem_eq_none_iff.1 accepted).2.2.healthCheckEvery

theorem checked_eq_ok_iff : s.checked = .ok s ↔ s.problem = none := by
  unfold checked
  cases s.problem with
  | none => exact iff_of_true rfl rfl
  | some p => exact iff_of_false nofun nofun

theorem checked_eq_error_iff {p : SettingsProblem} :
    s.checked = .error (.invalid p) ↔ s.problem = some p := by
  unfold checked
  cases s.problem with
  | none => exact iff_of_false nofun nofun
  | some other =>
    constructor
    · intro h
      cases h
      rfl
    · intro h
      cases h
      rfl

/-- What the check of settings makes of their keys. -/
structure KeysJudged (s : Settings) : Prop where
  catalogKey_refused_iff : s.checked = .error (.invalid .emptyCatalogKey) ↔
    Param.segments s.catalogKey = []
  statusKey_refused_iff : s.checked = .error (.invalid .emptyStatusKey) ↔
    Param.segments s.catalogKey ≠ [] ∧ Param.segments s.statusKey = []
  /-- Apart from what must not be zero, a path for each key is all it takes. -/
  accepted_iff : s.checked = .ok s ↔
    Param.segments s.catalogKey ≠ [] ∧ Param.segments s.statusKey ≠ [] ∧ s.NothingZero

theorem keysJudged (s : Settings) : s.KeysJudged where
  catalogKey_refused_iff := by
    rw [checked_eq_error_iff, problem_eq_emptyCatalogKey_iff, ← Bool.not_eq_true, isUsableKey_iff,
      Decidable.not_not]
  statusKey_refused_iff := by
    rw [checked_eq_error_iff, problem_eq_emptyStatusKey_iff, ← Bool.not_eq_true, isUsableKey_iff,
      isUsableKey_iff, Decidable.not_not]
  accepted_iff := by
    rw [checked_eq_ok_iff, problem_eq_none_iff, isUsableKey_iff, isUsableKey_iff]

/-! ## The two judgements -/

/-- **The settings and the tree judge keys alike.** The check of settings refuses a key exactly if
it has no path, be it that of the catalog or that of the status; and a key has a path exactly if an
empty tree takes something there, and exactly if whatever it takes there is found again under every
spelling of the key, and under nothing else. So there is one way only for a text to fail that is
published under settings that are accepted: something that is no table is in the tree already, on
the way to the key. Then the tree stays as it was and a warning tells of it; otherwise the text is
read under every spelling of the key. -/
theorem keys_judged_alike :
    (∀ s : Settings, s.KeysJudged) ∧
    (∀ key : String,
      ((∃ value tree, ParamTree.empty.insert key value = .ok tree) ↔ Param.segments key ≠ []) ∧
      (ParamTree.Serves key ↔ Param.segments key ≠ [])) ∧
    ∀ s : Settings, s.checked = .ok s →
      ∀ (tree : ParamTree) (text : String), tree.Publication s.statusKey text := by
  refine ⟨keysJudged, fun key => ⟨ParamTree.exists_insert_empty_iff, ParamTree.serves_iff⟩, ?_⟩
  intro s accepted tree text
  obtain ⟨-, hstatus, -⟩ := (keysJudged s).accepted_iff.1 accepted
  exact ParamTree.publication hstatus tree text

/-- The usual settings, but for the key of the status. -/
def publishingAt (key : String) : Settings := { standard with statusKey := key }

/-- The mode of an arm can be published beside its address, whatever slashes are in the key. Below
the address the key is accepted and the text is refused, and nothing but slashes is no key. -/
theorem keys_judged_alike_on_arm :
    ((publishingAt "/arm//mode/").checked = .ok (publishingAt "/arm//mode/") ∧
      (ParamTree.arm.publish "/arm//mode/" "welding").1.text? "arm/mode" = some "welding") ∧
    ((publishingAt "arm/ip/mode").checked = .ok (publishingAt "arm/ip/mode") ∧
      (ParamTree.arm.publish "arm/ip/mode" "welding").1 = ParamTree.arm) ∧
    (publishingAt "//").checked = .error (.invalid .emptyStatusKey) := by
  obtain ⟨hjudged, -, hpublished⟩ := keys_judged_alike
  have hbeside : (publishingAt "/arm//mode/").checked = .ok (publishingAt "/arm//mode/") :=
    (hjudged _).accepted_iff.2 ⟨by decide, by decide, by constructor <;> decide⟩
  have hbelow : (publishingAt "arm/ip/mode").checked = .ok (publishingAt "arm/ip/mode") :=
    (hjudged _).accepted_iff.2 ⟨by decide, by decide, by constructor <;> decide⟩
  have hfree : ¬ ParamTree.arm.Barred "/arm//mode/" :=
    (ParamTree.writable_iff_not_barred (by decide)).1 ⟨by decide, by decide⟩
  have hbarred : ParamTree.arm.Barred "arm/ip/mode" :=
    ⟨"arm/ip", _, ⟨by decide, ["mode"], by decide, by decide⟩, rfl, fun _ => Value.noConfusion⟩
  refine ⟨⟨hbeside, ?_⟩, ⟨hbelow, ?_⟩, ?_⟩
  · exact ((hpublished _ hbeside .arm "welding").read_iff "arm/mode"
      (Param.respelled_iff.2 (by decide))).2 hfree
  · exact congrArg Prod.fst ((hpublished _ hbelow .arm "welding").failed hbarred)
  · exact (hjudged (publishingAt "//")).statusKey_refused_iff.2 ⟨by decide, by decide⟩

end Settings

end ControlRig
