import BoolCalculus.Proofs.Settings.Words

/-!
# Layers of settings

A setting is what the record holds at the end of its path, else the environment variable of its name, else the default
(`Settings.Answers`). So nothing off the path counts, no variable but one, and none at all where the record answers. Only a
variable whose name has no bytes cannot be asked for (`Settings.Fails`). A flag is a truth value with one warning at most,
which names the variable and the text that no list has. A file that holds no record of settings counts as an empty one
(`Settings.layered`).
-/

namespace BoolCalculus.Settings

variable {config config' v default : Value} {env env' : Environment} {fields : Keyed Value} {key : Text} {keys : List Text}

/-! ## Paths -/

/-- A path of keys leads through records to a value. -/
inductive Leads : Value → List Text → Value → Prop
  | stop (v : Value) : Leads v [] v
  | step {fields : List (Text × Value)} {key : Text} {entry v : Value} {keys : List Text}
      (found : fields.lookup key = some entry) (rest : Leads entry keys v) :
      Leads (.record fields) (key :: keys) v

/-- The record of settings answers at a path: the path leads to a value other than null. -/
def Sets (config : Value) (keys : List Text) (v : Value) : Prop :=
  Leads config keys v ∧ v ≠ .null

theorem valueAt_null (keys : List Text) : valueAt .null keys = .null := by
  induction keys with
  | nil => rfl
  | cons key keys ih => exact ih

theorem valueAt_found {entry : Value} (found : fields.lookup key = some entry) :
    valueAt (.record fields) (key :: keys) = valueAt entry keys := by
  rw [valueAt, Value.field, found]
  rfl

theorem valueAt_missing (missing : fields.lookup key = none) : valueAt (.record fields) (key :: keys) = .null := by
  rw [valueAt, Value.field, missing]
  exact valueAt_null keys

theorem valueAt_of_leads (leads : Leads config keys v) : valueAt config keys = v := by
  induction leads with
  | stop v => rfl
  | step found _ ih => exact (valueAt_found found).trans ih

/-- What is read at the end of a path is a value that the path leads to, or null. -/
theorem leads_valueAt (notNull : valueAt config keys ≠ .null) : Leads config keys (valueAt config keys) := by
  induction keys generalizing config with
  | nil => exact .stop config
  | cons key keys ih =>
      cases config with
      | record fields =>
          cases found : fields.lookup key with
          | some entry =>
              rw [valueAt_found found] at notNull ⊢
              exact .step found (ih notNull)
          | none => exact absurd (valueAt_missing found) notNull
      -- Nothing but a record has fields.
      | _ => exact absurd (valueAt_null keys) notNull

/-- The record answers where the end of the path is not null. -/
theorem sets_iff : Sets config keys v ↔ valueAt config keys = v ∧ v ≠ .null := by
  constructor
  · rintro ⟨leads, notNull⟩
    exact ⟨valueAt_of_leads leads, notNull⟩
  · rintro ⟨rfl, notNull⟩
    exact ⟨leads_valueAt notNull, notNull⟩

/-- Two values differ in no entry but those off a path: where the path goes on, either both are records that have an entry of
the next key or neither has one, and where it ends they are the same. -/
inductive DifferOffPath : List Text → Value → Value → Prop
  | same (keys : List Text) (v : Value) : DifferOffPath keys v v
  | entry {fields fields' : List (Text × Value)} {key : Text} {entry entry' : Value} {keys : List Text}
      (found : fields.lookup key = some entry) (found' : fields'.lookup key = some entry')
      (rest : DifferOffPath keys entry entry') : DifferOffPath (key :: keys) (.record fields) (.record fields')
  | missing {fields fields' : List (Text × Value)} {key : Text} {keys : List Text}
      (missing : fields.lookup key = none) (missing' : fields'.lookup key = none) :
      DifferOffPath (key :: keys) (.record fields) (.record fields')

/-- An entry of another key than the next one is off the path. -/
theorem differOffPath_put (fields : Keyed Value) {key other : Text} (off : key ≠ other) (keys : List Text) (v : Value) :
    DifferOffPath (key :: keys) (.record fields) (.record (fields.put other v)) := by
  have kept := Keyed.lookup_put_ne fields v off
  cases found : fields.lookup key with
  | some entry => exact .entry found (kept.trans found) (.same keys entry)
  | none => exact .missing found (kept.trans found)

/-- What is off a path does not change what is read at its end. -/
theorem valueAt_of_differOffPath (differ : DifferOffPath keys config config') :
    valueAt config keys = valueAt config' keys := by
  induction differ with
  | same keys v => rfl
  | entry found found' _ ih => rw [valueAt_found found, valueAt_found found', ih]
  | missing missing missing' => rw [valueAt_missing missing, valueAt_missing missing']

/-! ## Names of variables -/

/-- The environment can be asked for a name: every code point of the name has bytes. -/
def Askable (name : Text) : Prop :=
  ∀ p ∈ name.points, p.byteCount?.isSome

/-- The search for a code point without bytes ends without one where all have bytes. -/
theorem byteless?_eq_none_iff {before : Nat} {points : List Point} :
    Text.byteless? before points = none ↔ ∀ p ∈ points, p.byteCount?.isSome := by
  induction points generalizing before with
  | nil => simp [Text.byteless?]
  | cons p points ih =>
      rw [Text.byteless?, List.forall_mem_cons]
      by_cases bytes : p.byteCount?.isSome
      · simp only [bytes, if_true, true_and]
        exact ih
      · simp [bytes]

theorem lookup_of_askable {name : Text} (askable : Askable name) : lookup env name = .ok (env name) := by
  rw [lookup, byteless?_eq_none_iff.2 askable]

/-- A name without bytes is refused, whatever variables are set. -/
theorem lookup_of_not_askable {name : Text} (not : ¬Askable name) :
    ∃ half first last, ∀ env, lookup env name = .error (.notEncodable half first last) := by
  cases found : Text.byteless? 0 name.points with
  | none => exact absurd (byteless?_eq_none_iff.1 found) not
  | some place =>
      obtain ⟨half, first, last⟩ := place
      exact ⟨half, first, last, fun env => by rw [lookup, found]⟩

/-! ## Layers -/

/-- The first layer that is set answers. -/
inductive Answers (config : Value) (env : Environment) (keys : List Text) (default : Value) : Value → Prop
  | record {v : Value} (set : Sets config keys v) : Answers config env keys default v
  | environment {text : Text} (unset : ∀ v, ¬Sets config keys v) (askable : Askable (variableOf keys))
      (set : env (variableOf keys) = some text) : Answers config env keys default (.text text)
  | default (unset : ∀ v, ¬Sets config keys v) (askable : Askable (variableOf keys))
      (unset' : env (variableOf keys) = none) : Answers config env keys default default

/-- The layers do not answer: the record does not set the path, and the environment cannot be asked for its variable. -/
def Fails (config : Value) (keys : List Text) : Prop :=
  (∀ v, ¬Sets config keys v) ∧ ¬Askable (variableOf keys)

theorem unset_iff : (∀ v, ¬Sets config keys v) ↔ valueAt config keys = .null := by
  simp only [sets_iff, not_and, not_not, forall_eq']

/-- A record that sets the path answers, whatever the environment and the default. -/
theorem resolve_of_sets (set : Sets config keys v) : resolve config env keys default = .ok v := by
  obtain ⟨reached, notNull⟩ := sets_iff.1 set
  rw [resolve, reached]
  split
  · contradiction
  · rfl

/-- Where the record does not set the path, the variable answers, or else the default. -/
theorem resolve_of_unset (unset : ∀ v, ¬Sets config keys v) (askable : Askable (variableOf keys)) :
    resolve config env keys default = .ok (((env (variableOf keys)).map Value.text).getD default) := by
  rw [resolve, unset_iff.1 unset, lookup_of_askable askable]
  rfl

/-- Where the layers fail, they refuse the name in every environment and with every default. -/
theorem resolve_of_fails (fails : Fails config keys) :
    ∃ half first last, ∀ env default, resolve config env keys default = .error (.notEncodable half first last) := by
  obtain ⟨half, first, last, refused⟩ := lookup_of_not_askable fails.2
  refine ⟨half, first, last, fun env default => ?_⟩
  rw [resolve, unset_iff.1 fails.1, refused env]
  rfl

/-- Either the layers answer, all three of them being asked if need be, or they fail. -/
theorem answers_or_fails (config : Value) (env : Environment) (keys : List Text) (default : Value) :
    (∃ v, resolve config env keys default = .ok v ∧ Answers config env keys default v) ∨ Fails config keys := by
  by_cases reached : valueAt config keys = .null
  · have unset := unset_iff.2 reached
    by_cases askable : Askable (variableOf keys)
    · refine .inl ⟨_, resolve_of_unset unset askable, ?_⟩
      cases set : env (variableOf keys) with
      | some text => exact .environment unset askable set
      | none => exact .default unset askable set
    · exact .inr ⟨unset, askable⟩
  · have set : Sets config keys (valueAt config keys) := sets_iff.2 ⟨rfl, reached⟩
    exact .inl ⟨_, resolve_of_sets set, .record set⟩

/-- What a setting is are the answers of its layers. -/
theorem resolve_eq_ok_iff : resolve config env keys default = .ok v ↔ Answers config env keys default v := by
  constructor
  · intro answer
    rcases answers_or_fails config env keys default with ⟨_, here, answers⟩ | fails
    · obtain rfl := Except.ok.inj (here.symm.trans answer)
      exact answers
    · obtain ⟨half, first, last, refused⟩ := resolve_of_fails fails
      cases (refused env default).symm.trans answer
  · intro answers
    cases answers with
    | record set => exact resolve_of_sets set
    | environment unset askable set =>
        rw [resolve_of_unset unset askable, set]
        rfl
    | default unset askable unset' =>
        rw [resolve_of_unset unset askable, unset']
        rfl

theorem resolve_congr (differ : DifferOffPath keys config config')
    (agree : env (variableOf keys) = env' (variableOf keys)) (default : Value) :
    resolve config env keys default = resolve config' env' keys default := by
  have same : lookup env (variableOf keys) = lookup env' (variableOf keys) := by rw [lookup, lookup, agree]
  rw [resolve, resolve, valueAt_of_differOffPath differ, same]

/-! ## Flags -/

/-- How the flag of a name reads the value of a setting: a text by the word lists, another value by whether it counts as
true. A text that spells no word leaves the default, with one warning. -/
inductive ReadsAs (default : Bool) (name : Text) : Value → Bool → List Warning → Prop
  | plain {v : Value} (noText : ∀ text, v ≠ .text text) : ReadsAs default name v v.isTrue []
  | word {text : Text} {word : String} {b : Bool} (listed : word ∈ words b) (spelled : text.Spells word) :
      ReadsAs default name (.text text) b []
  | unrecognised {text : Text} (unlisted : ∀ b, ∀ word ∈ words b, ¬text.Spells word) :
      ReadsAs default name (.text text) default [.unrecognised text name (.truth default)]

/-- A flag is read as a truth value whatever its setting is. -/
theorem asFlag_reads (default : Bool) (name : Text) (answer : Value) :
    ∃ b warnings, asFlag name (.truth default) answer = (.truth b, warnings) ∧ ReadsAs default name answer b warnings := by
  rw [asFlag.eq_def]
  split
  case h_1 text =>
    cases read : word? text with
    | some b =>
        obtain ⟨word, listed, spelled⟩ := word?_eq_some_iff.1 read
        exact ⟨b, [], rfl, .word listed spelled⟩
    | none =>
        refine ⟨default, _, rfl, .unrecognised fun b word listed spelled => ?_⟩
        rw [word?_eq_some_iff.2 ⟨word, listed, spelled⟩] at read
        cases read
  case h_2 noText => exact ⟨_, [], rfl, .plain noText⟩

/-- A flag is read off the value of its setting. -/
theorem flag_of_resolve {answer : Value} (resolved : resolve config env keys default = .ok answer) :
    flag config env keys default = .ok (asFlag (variableOf keys) default answer) := by
  rw [flag, resolved]
  rfl

theorem flag_of_error {f : Fault} (failed : resolve config env keys default = .error f) :
    flag config env keys default = .error f := by
  rw [flag, failed]
  rfl

theorem flag_congr (same : resolve config env keys default = resolve config' env' keys default) :
    flag config env keys default = flag config' env' keys default := by
  rw [flag, flag, same]

/-! ## Files -/

/-- A path leads to a file that holds a record of settings. -/
def Holds (host : Host) (path : Text) (fields : Keyed Value) : Prop :=
  ∃ bytes text, host.files path = .file bytes ∧ String.fromUTF8? bytes = some text ∧
    Json.readNested host.nesting text = .ok (.record fields)

/-- A path leads to no file, or to one that cannot be read, that is no text, whose text is not JSON, or that holds no
record. -/
inductive Unusable (host : Host) (path : Text) : Prop
  | absent (absent : host.files path = .nothing)
  | unreadable (unreadable : host.files path = .unreadable)
  | noText {bytes : ByteArray} (file : host.files path = .file bytes) (noText : String.fromUTF8? bytes = none)
  | noJson {bytes : ByteArray} {text : String} (file : host.files path = .file bytes)
      (decoded : String.fromUTF8? bytes = some text) (noJson : Json.readNested host.nesting text = .error .malformed)
  | noRecord {bytes : ByteArray} {text : String} {v : Value} (file : host.files path = .file bytes)
      (decoded : String.fromUTF8? bytes = some text) (read : Json.readNested host.nesting text = .ok v)
      (noRecord : ∀ fields, v ≠ .record fields)

variable {host : Host} {given : Option Text}

theorem load_of_holds {fields : Keyed Value} (holds : Holds host (settingsPath host.environment given) fields) :
    load host given = .ok (fields, []) := by
  obtain ⟨bytes, text, file, decoded, read⟩ := holds
  simp only [load, file, ofBytes, decoded, read]

/-- A file without a record counts as empty. -/
theorem load_of_unusable (unusable : Unusable host (settingsPath host.environment given)) :
    ∃ warnings, load host given = .ok ([], warnings) := by
  rw [load]
  cases unusable with
  | absent absent => exact ⟨_, by simp only [absent]; rfl⟩
  | unreadable unreadable => exact ⟨_, by simp only [unreadable]; rfl⟩
  | noText file noText => exact ⟨_, by simp only [file, ofBytes, noText]; rfl⟩
  | noJson file decoded noJson => exact ⟨_, by simp only [file, ofBytes, decoded, noJson]; rfl⟩
  | noRecord file decoded read noRecord => exact ⟨_, by simp only [file, ofBytes, decoded, read]; rfl⟩

/-- Where no record is given, the one of the file is read, after the warnings for the file. -/
theorem withSettings_of_load {β : Type} {fields : Keyed Value} {warnings : List Warning}
    (loaded : load host none = .ok (fields, warnings)) (read : Value → Except Fault (β × List Warning)) :
    host.withSettings .null read =
      (fun answer => (answer.1, warnings ++ answer.2)) <$> host.withSettings (.record fields) read := by
  show (load host none >>= fun loaded => read (.record loaded.1) >>= fun answer =>
    pure (answer.1, loaded.2 ++ answer.2)) = _ <$> read (.record fields)
  rw [loaded, map_eq_pure_bind]
  rfl

/-! ## Settings -/

/-- What layers of settings are: each answers before the next one is asked, and nothing else counts. -/
structure Layered (config : Value) (keys : List Text) : Prop where
  answers : ∀ env default v, resolve config env keys default = .ok v ↔ Answers config env keys default v
  fails : ∀ env default, ((∃ f, resolve config env keys default = .error f) ↔ Fails config keys) ∧
    ((∃ f, flag config env keys default = .error f) ↔ Fails config keys)
  offPath : ∀ {config' env env'}, DifferOffPath keys config config' → env (variableOf keys) = env' (variableOf keys) →
    ∀ default, resolve config env keys default = resolve config' env' keys default ∧
      flag config env keys default = flag config' env' keys default
  first : ∀ {v}, Sets config keys v → ∀ env env' default, resolve config env keys default = .ok v ∧
    flag config env keys default = flag config env' keys default
  reads : ∀ env (default : Bool) answer, resolve config env keys (.truth default) = .ok answer →
    ∃ b warnings, flag config env keys (.truth default) = .ok (.truth b, warnings) ∧
      ReadsAs default (variableOf keys) answer b warnings

/-- The layers and a flag that is read off them fail together. -/
theorem fails_iff (config : Value) (env : Environment) (keys : List Text) (default : Value) :
    ((∃ f, resolve config env keys default = .error f) ↔ Fails config keys) ∧
    ((∃ f, flag config env keys default = .error f) ↔ Fails config keys) := by
  rcases answers_or_fails config env keys default with ⟨v, answer, -⟩ | fails
  · have never : ¬Fails config keys := by
      intro fails
      obtain ⟨half, first, last, refused⟩ := resolve_of_fails fails
      cases answer.symm.trans (refused env default)
    refine ⟨iff_of_false ?_ never, iff_of_false ?_ never⟩
    · rintro ⟨f, failed⟩
      cases answer.symm.trans failed
    · rintro ⟨f, failed⟩
      cases (flag_of_resolve answer).symm.trans failed
  · obtain ⟨half, first, last, refused⟩ := resolve_of_fails fails
    exact ⟨iff_of_true ⟨_, refused env default⟩ fails, iff_of_true ⟨_, flag_of_error (refused env default)⟩ fails⟩

/-- The layers of every record answer in their order at every path. -/
theorem layered_of_path (config : Value) (keys : List Text) : Layered config keys where
  answers _ _ _ := resolve_eq_ok_iff
  fails env default := fails_iff config env keys default
  offPath := by
    intro config' env env' differ agree default
    have same := resolve_congr differ agree default
    exact ⟨same, flag_congr same⟩
  first := by
    intro v set env env' default
    have answer : ∀ env, resolve config env keys default = .ok v := fun env => resolve_of_sets set
    exact ⟨answer env, flag_congr ((answer env).trans (answer env').symm)⟩
  reads := by
    intro env default answer resolved
    obtain ⟨b, warnings, read, reads⟩ := asFlag_reads default (variableOf keys) answer
    exact ⟨b, warnings, (flag_of_resolve resolved).trans (congrArg Except.ok read), reads⟩

/-- At every path the layers answer in their order, and they fail only where the environment is to be asked for a name
without bytes. A file that holds a record gives the first of the layers, and a path to anything else, on whatever host,
gives the same settings and flags as an empty record. -/
theorem layered (keys : List Text) (host : Host) (given : Option Text) :
    (∀ config, Layered config keys) ∧
      (∀ fields, Holds host (settingsPath host.environment given) fields → load host given = .ok (fields, [])) ∧
      (Unusable host (settingsPath host.environment given) → ∃ warnings, load host given = .ok ([], warnings)) ∧
      (Unusable host (settingsPath host.environment none) → ∃ warnings, ∀ default,
        host.setting .null keys default =
          (fun answer => (answer.1, warnings ++ answer.2)) <$> host.setting (.record []) keys default ∧
        host.flag .null keys default =
          (fun answer => (answer.1, warnings ++ answer.2)) <$> host.flag (.record []) keys default) := by
  refine ⟨fun config => layered_of_path config keys, fun fields => load_of_holds, load_of_unusable, fun unusable => ?_⟩
  obtain ⟨warnings, empty⟩ := load_of_unusable unusable
  exact ⟨warnings, fun default => ⟨withSettings_of_load empty _, withSettings_of_load empty _⟩⟩

/-- A flag with a text that no list has, before and after another entry is written, and on a host whose file of settings,
at an absolute path, cannot be read. -/
theorem layered_engine :
    let keys : List Text := ["engine", "check_membership"]
    let fields : Keyed Value := [("engine", .record [("check_membership", .text "maybe")])]
    let config : Value := .record fields
    let config' : Value := .record (fields.put "other" (.int 5))
    let unset : Environment := fun _ => none
    let set : Environment := fun name => if name = pathVariable then some "/etc/settings.json" else some "no"
    let host : Host := ⟨set, fun path => if path = "/etc/settings.json" then .unreadable else .nothing, 900⟩
    Sets config keys (.text "maybe") ∧ DifferOffPath keys config config' ∧
      Unusable host (settingsPath set none) ∧
      flag config unset keys (.truth true) = flag config' unset keys (.truth true) ∧
      flag config unset keys (.truth true) = flag config set keys (.truth true) ∧
      ∃ warnings, host.flag .null keys (.truth true) =
        (fun answer => (answer.1, warnings ++ answer.2)) <$> host.flag (.record []) keys (.truth true) := by
  intro keys fields config config' unset set host
  obtain ⟨layers, -, -, empty⟩ := layered keys host none
  have found : Sets config keys (.text "maybe") := ⟨.step rfl (.step rfl (.stop _)), nofun⟩
  have differ : DifferOffPath keys config config' := differOffPath_put fields (by decide) ["check_membership"] (.int 5)
  have unreadable : Unusable host (settingsPath set none) := .unreadable rfl
  obtain ⟨warnings, same⟩ := empty unreadable
  exact ⟨found, differ, unreadable, ((layers config).offPath differ rfl _).2, ((layers config).first found unset set _).2,
    warnings, (same _).2⟩

/-- The flag of a name that is half of a surrogate pair is not read, with no record to answer before the environment. -/
theorem flag_unnamed :
    flag (.record []) (fun _ => none) [⟨[.half 0]⟩] (.truth false) = .error (.notEncodable (.half 0) 0 0) :=
  rfl

end BoolCalculus.Settings
