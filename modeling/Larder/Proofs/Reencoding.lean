import Larder.Api.Records
import Mathlib.Data.List.Forall2

/-!
# Records survive being written and read again

The service may give a record as an object, with members in any order and with others among them, or as
an array of its fields. A field that is absent, one that is `null` and one that has its default can come
to the same record. Writing the record settles all this: every field is there, under its name, with the
value it has. So what is read from a written record is the record itself, and to write and read it once
more changes nothing.

What it means that a value writes a record is said by formats, one for each shape that a field can have.
A format leaves open in which order the members of an object stand, since readers of JSON may sort them.
A decoder keeps a format if it reads again what it has read once, and decoders of records keep theirs
because those of their fields do.
-/

namespace Larder.Api

/-! ## Formats -/

/-- Which values write what. -/
abbrev Format (α : Type) := α → Json → Prop

namespace Format

/-- What one encoder writes. -/
def exactly {α : Type} (e : α → Json) : Format α := fun a j => j = e a

/-- An array of what the items are written as. -/
def listOf {α : Type} (W : Format α) : Format (List α) :=
  fun as j => ∃ js, j = .arr js ∧ List.Forall₂ W as js

/-- What is written, or `null` for nothing. -/
def orNull {α : Type} (W : Format α) : Format (Option α)
  | none, j => j = .null
  | some a, j => W a j

/-- An object that has the fields, each under its name with a value of its own, in any order and with
any others among them, and no name twice. -/
def Record (fields : List (String × (Json → Prop))) (j : Json) : Prop :=
  ∃ ms, j = .obj ms ∧ (ms.map Prod.fst).Nodup ∧ ∀ f ∈ fields, ∃ v, (f.1, v) ∈ ms ∧ f.2 v

end Format

open Format

/-- A decoder reads from what is written the same as it has read once. -/
def Keeps {α : Type} (d : Decoder α) (W : Format α) : Prop :=
  ∀ j a, d j = .ok a → ∀ j', W a j' → d j' = .ok a

/-! ## Fields -/

theorem bind_eq_ok {ε α β : Type} {x : Except ε α} {f : α → Except ε β} {b : β}
    (h : x >>= f = .ok b) : ∃ a, x = .ok a ∧ f a = .ok b := by
  cases x with
  | error e => cases h
  | ok a => exact ⟨a, rfl, h⟩

theorem keeps_any : Keeps any (exactly id) := fun _ _ _ _ hj' => congrArg any hj'

theorem keeps_string : Keeps string (exactly .str) := fun _ _ _ _ hj' => congrArg string hj'

theorem keeps_boolean : Keeps boolean (exactly .bool) := fun _ _ _ _ hj' => congrArg boolean hj'

theorem keeps_object : Keeps object (exactly .obj) := fun _ _ _ _ hj' => congrArg object hj'

/-- A number that was read is within its range, and is read again. -/
theorem keeps_integer : Keeps integer (exactly .int) := by
  rintro j n h j' rfl
  cases j with
  | int m =>
      unfold integer at h
      dsimp only at h
      split at h
      next hrange =>
        cases h
        exact if_pos hrange
      next => cases h
  | _ => cases h

section

variable {α : Type} {d : Decoder α} {W : Format α}

theorem items_eq_ok_iff {js : List Json} {as : List α} :
    items d js = .ok as ↔ List.Forall₂ (fun j a => d j = .ok a) js as := by
  induction js generalizing as with
  | nil => cases as <;> simp [items]
  | cons j js ih =>
      simp only [items]
      constructor
      · intro h
        cases hj : d j with
        | error fault => rw [hj] at h; cases h
        | ok a =>
            cases hjs : items d js with
            | error fault => rw [hj, hjs] at h; cases h
            | ok as' =>
                rw [hj, hjs] at h
                cases h
                exact .cons hj (ih.1 hjs)
      · rintro (_ | ⟨hj, hjs⟩)
        rw [hj, ih.2 hjs]

theorem keeps_list (h : Keeps d W) : Keeps (list d) (listOf W) := by
  rintro j as hj _ ⟨js', rfl, hwrites⟩
  cases j with
  | arr js =>
      have hread := items_eq_ok_iff.1 hj
      refine items_eq_ok_iff.2 ?_
      clear hj
      induction hread generalizing js' with
      | nil => cases hwrites; exact .nil
      | cons hja _ ih =>
          cases hwrites with
          | cons hw hws => exact .cons (h _ _ hja _ hw) (ih _ hws)
  | _ => cases hj

theorem nullable_of_ne {j : Json} (hj : j ≠ .null) : nullable d j = (d j).map some := by
  cases j with
  | null => exact absurd rfl hj
  | _ => rfl

/-- An optional value is kept if nothing that was read from another value than `null` is written as
`null`. -/
theorem keeps_nullable (h : Keeps d W)
    (hnull : ∀ j a, j ≠ .null → d j = .ok a → ¬ W a .null) : Keeps (nullable d) (orNull W) := by
  intro j o hj j' hw
  by_cases hj0 : j = .null
  · subst hj0
    cases hj
    rw [show j' = .null from hw]
    rfl
  · rw [nullable_of_ne hj0] at hj
    cases hd : d j with
    | error fault => rw [hd] at hj; cases hj
    | ok a =>
        rw [hd] at hj
        cases hj
        have hj' : j' ≠ .null := by
          rintro rfl
          exact hnull j a hj0 hd hw
        rw [nullable_of_ne hj', h j a hd j' hw]
        rfl

theorem keeps_nullable_string : Keeps (nullable string) (orNull (exactly .str)) :=
  keeps_nullable keeps_string fun _ _ _ _ hw => Json.noConfusion hw

theorem keeps_nullable_object : Keeps (nullable object) (orNull (exactly .obj)) :=
  keeps_nullable keeps_object fun _ _ _ _ hw => Json.noConfusion hw

theorem keeps_nullable_integer : Keeps (nullable integer) (orNull (exactly .int)) :=
  keeps_nullable keeps_integer fun _ _ _ _ hw => Json.noConfusion hw

/-- Any value but `null` stands for itself, and `null` for nothing. -/
theorem keeps_nullable_any : Keeps (nullable any) (orNull (exactly id)) :=
  keeps_nullable keeps_any fun _ _ hj hread hw => hj ((Except.ok.inj hread).trans hw.symm)

end

/-! ## Members -/

/-- An object has a field if a member of the field's name has a value of its shape. -/
def Has (ms : List (String × Json)) (f : Field) : Prop :=
  ∃ v, (f.name, v) ∈ ms ∧ f.check v = .ok ()

section

variable {ms : List (String × Json)} {name : String} {v : Json}

theorem valueOf_of_mem (hnames : (ms.map Prod.fst).Nodup) (hv : (name, v) ∈ ms) :
    valueOf ms name = some v := by
  induction ms with
  | nil => exact absurd hv List.not_mem_nil
  | cons m ms ih =>
      obtain ⟨hfirst, hrest⟩ := List.nodup_cons.1 hnames
      unfold valueOf
      rcases List.mem_cons.1 hv with rfl | hin
      · simp
      · have hne : m.1 ≠ name := by
          rintro rfl
          exact hfirst (List.mem_map.2 ⟨_, hin, rfl⟩)
        rw [List.find?_cons_of_neg (by simpa using hne)]
        exact ih hrest hin

/-- An object that has all the fields is read as it is, no matter what else stands there. -/
theorem members_of_fields {fields : List Field} (record : String) (hnames : (ms.map Prod.fst).Nodup)
    (hfields : fields.Forall (Has ms)) : members record fields (.obj ms) = .ok ms := by
  rw [List.forall_iff_forall_mem] at hfields
  have hcheck : ∀ rest : List (String × Json), (∀ m ∈ rest, m ∈ ms) →
      checkMembers fields rest = .ok () := by
    intro rest hrest
    induction rest with
    | nil => rfl
    | cons m rest ih =>
        have hlater := ih fun m' hm' => hrest m' (List.mem_cons_of_mem m hm')
        simp only [checkMembers]
        split
        · exact hlater
        next f hf =>
          obtain ⟨v, hv, hchecked⟩ := hfields f (List.mem_of_find?_eq_some hf)
          have hname : f.name = m.1 := by simpa using List.find?_some hf
          -- no name stands twice, so this is the member with the field's value
          have hvalue : v = m.2 := by
            have hfirst := valueOf_of_mem hnames hv
            rw [hname, valueOf_of_mem hnames (hrest m List.mem_cons_self)] at hfirst
            exact (Option.some.inj hfirst).symm
          rw [← hvalue, hchecked]
          exact hlater
  have hmissing : firstMissing fields ms = none := by
    unfold firstMissing
    rw [Option.map_eq_none_iff, List.find?_eq_none]
    intro f hf
    obtain ⟨v, hv, _⟩ := hfields f hf
    have hthere : (ms.any fun m => m.1 = f.name) = true :=
      List.any_eq_true.2 ⟨_, hv, by simp⟩
    simp [hthere]
  simp only [members, hcheck ms fun _ h => h, hmissing]

variable {α : Type} {d : Decoder α} {W : Format α} {ms' : List (String × Json)}

theorem has_of_ok {presence : Presence} {a : α} (hv : (name, v) ∈ ms) (h : d v = .ok a) :
    Has ms (field name presence d) := by
  refine ⟨v, hv, ?_⟩
  show (d v).map (fun _ => ()) = _
  rw [h]
  rfl

/-- A required field that was read is read again from what it is written as. -/
theorem Keeps.required (h : Keeps d W) {a : α} (ha : required ms name d = .ok a)
    (hnames : (ms'.map Prod.fst).Nodup) (hwritten : ∃ v, (name, v) ∈ ms' ∧ W a v) :
    required ms' name d = .ok a ∧ Has ms' (field name .required d) := by
  obtain ⟨v, hv, hw⟩ := hwritten
  have hread : d v = .ok a := by
    unfold Api.required at ha
    split at ha
    · exact h _ _ ha v hw
    · cases ha
  refine ⟨?_, has_of_ok hv hread⟩
  unfold Api.required
  rw [valueOf_of_mem hnames hv]
  exact hread

/-- An optional field that was read is read again: absence and `null` are written alike. -/
theorem Keeps.optional (h : Keeps (nullable d) (orNull W)) {o : Option α}
    (ho : optional ms name d = .ok o) (hnames : (ms'.map Prod.fst).Nodup)
    (hwritten : ∃ v, (name, v) ∈ ms' ∧ orNull W o v) :
    optional ms' name d = .ok o ∧ Has ms' (field name .optional (nullable d)) := by
  obtain ⟨v, hv, hw⟩ := hwritten
  have hread : nullable d v = .ok o := by
    unfold Api.optional at ho
    split at ho
    · exact h _ _ ho v hw
    · cases ho
      rw [show v = .null from hw]
      rfl
  refine ⟨?_, has_of_ok hv hread⟩
  unfold Api.optional
  rw [valueOf_of_mem hnames hv]
  exact hread

/-- A field with a default is read again: the default is written like any other value. -/
theorem Keeps.defaulted (h : Keeps d W) {a fallback : α} (hfallback : ∃ j, d j = .ok fallback)
    (ha : defaulted ms name d fallback = .ok a) (hnames : (ms'.map Prod.fst).Nodup)
    (hwritten : ∃ v, (name, v) ∈ ms' ∧ W a v) :
    defaulted ms' name d fallback = .ok a ∧ Has ms' (field name .defaulted d) := by
  obtain ⟨v, hv, hw⟩ := hwritten
  have hread : d v = .ok a := by
    unfold Api.defaulted at ha
    split at ha
    · exact h _ _ ha v hw
    · cases ha
      obtain ⟨j, hj⟩ := hfallback
      exact h j _ hj v hw
  refine ⟨?_, has_of_ok hv hread⟩
  unfold Api.defaulted
  rw [valueOf_of_mem hnames hv]
  exact hread

end

/-! ## Records -/

/-- How a team is written. -/
def TeamRecord.Writes : Format TeamRecord := fun t => Record [
  ("teamId", exactly .str t.teamId),
  ("teamName", orNull (exactly .str) t.teamName),
  ("description", orNull (exactly .str) t.description),
  ("teamPermissions", listOf (exactly .str) t.teamPermissions),
  ("metaParameters", orNull (exactly .obj) t.metaParameters)]

/-- How a grant is written. -/
def ConnectionGrant.Writes : Format ConnectionGrant := fun g => Record [
  ("connectionId", exactly .str g.connectionId),
  ("subjectId", exactly .str g.subjectId),
  ("subjectType", exactly .str g.subjectType)]

/-- How a session is written. -/
def SessionInfo.Writes : Format SessionInfo := fun s => Record [
  ("createTime", exactly .str s.createTime),
  ("lastAccessTime", exactly .str s.lastAccessTime),
  ("locale", exactly .str s.locale),
  ("cacheExpired", exactly .bool s.cacheExpired),
  ("valid", exactly .bool s.valid),
  ("remainingTime", orNull (exactly .int) s.remainingTime)]

/-- How a group of settings is written. -/
def SettingsGroup.Writes : Format SettingsGroup := fun g => Record [
  ("id", exactly .str g.id),
  ("displayName", exactly .str g.displayName)]

/-- How a setting is written. -/
def Setting.Writes : Format Setting := fun s => Record [
  ("key", exactly .str s.key),
  ("displayName", orNull (exactly .str) s.displayName),
  ("groupId", orNull (exactly .str) s.groupId),
  ("value", orNull (exactly id) s.value)]

/-- How the settings are written, each of the groups and each of the settings in a way of its own. -/
def ProductSettings.Writes : Format ProductSettings := fun s => Record [
  ("groups", listOf SettingsGroup.Writes s.groups),
  ("settings", listOf Setting.Writes s.settings)]

theorem keeps_team : Keeps TeamRecord.decode TeamRecord.Writes := by
  intro j t hj j' hw
  obtain ⟨ms, -, h⟩ := bind_eq_ok hj
  obtain ⟨id, hid, h⟩ := bind_eq_ok h
  obtain ⟨teamName, hname, h⟩ := bind_eq_ok h
  obtain ⟨description, hdescription, h⟩ := bind_eq_ok h
  obtain ⟨permissions, hpermissions, h⟩ := bind_eq_ok h
  obtain ⟨parameters, hparameters, h⟩ := bind_eq_ok h
  cases h
  obtain ⟨ms', rfl, hnames, hfields⟩ := hw
  simp only [List.forall_mem_cons] at hfields
  obtain ⟨hw₁, hw₂, hw₃, hw₄, hw₅, -⟩ := hfields
  obtain ⟨h₁, hhas₁⟩ := keeps_string.required hid hnames hw₁
  obtain ⟨h₂, hhas₂⟩ := keeps_nullable_string.optional hname hnames hw₂
  obtain ⟨h₃, hhas₃⟩ := keeps_nullable_string.optional hdescription hnames hw₃
  obtain ⟨h₄, hhas₄⟩ := (keeps_list keeps_string).defaulted ⟨.arr [], rfl⟩ hpermissions hnames hw₄
  obtain ⟨h₅, hhas₅⟩ := keeps_nullable_object.optional hparameters hnames hw₅
  have hmembers : members "ApiTeam" TeamRecord.fields (.obj ms') = .ok ms' :=
    members_of_fields _ hnames ⟨hhas₁, hhas₂, hhas₃, hhas₄, hhas₅⟩
  simp only [TeamRecord.decode, hmembers, h₁, h₂, h₃, h₄, h₅, bind, Except.bind,
    pure, Except.pure]

theorem keeps_grant : Keeps ConnectionGrant.decode ConnectionGrant.Writes := by
  intro j g hj j' hw
  obtain ⟨ms, -, h⟩ := bind_eq_ok hj
  obtain ⟨connectionId, hconnection, h⟩ := bind_eq_ok h
  obtain ⟨subjectId, hsubject, h⟩ := bind_eq_ok h
  obtain ⟨subjectType, htype, h⟩ := bind_eq_ok h
  cases h
  obtain ⟨ms', rfl, hnames, hfields⟩ := hw
  simp only [List.forall_mem_cons] at hfields
  obtain ⟨hw₁, hw₂, hw₃, -⟩ := hfields
  obtain ⟨h₁, hhas₁⟩ := keeps_string.required hconnection hnames hw₁
  obtain ⟨h₂, hhas₂⟩ := keeps_string.required hsubject hnames hw₂
  obtain ⟨h₃, hhas₃⟩ := keeps_string.required htype hnames hw₃
  have hmembers : members "ApiConnectionGrant" ConnectionGrant.fields (.obj ms') = .ok ms' :=
    members_of_fields _ hnames ⟨hhas₁, hhas₂, hhas₃⟩
  simp only [ConnectionGrant.decode, hmembers, h₁, h₂, h₃, bind, Except.bind, pure, Except.pure]

theorem keeps_session : Keeps SessionInfo.decode SessionInfo.Writes := by
  intro j s hj j' hw
  obtain ⟨ms, -, h⟩ := bind_eq_ok hj
  obtain ⟨createTime, hcreate, h⟩ := bind_eq_ok h
  obtain ⟨lastAccessTime, haccess, h⟩ := bind_eq_ok h
  obtain ⟨locale, hlocale, h⟩ := bind_eq_ok h
  obtain ⟨cacheExpired, hexpired, h⟩ := bind_eq_ok h
  obtain ⟨valid, hvalid, h⟩ := bind_eq_ok h
  obtain ⟨remainingTime, hremaining, h⟩ := bind_eq_ok h
  cases h
  obtain ⟨ms', rfl, hnames, hfields⟩ := hw
  simp only [List.forall_mem_cons] at hfields
  obtain ⟨hw₁, hw₂, hw₃, hw₄, hw₅, hw₆, -⟩ := hfields
  obtain ⟨h₁, hhas₁⟩ := keeps_string.required hcreate hnames hw₁
  obtain ⟨h₂, hhas₂⟩ := keeps_string.required haccess hnames hw₂
  obtain ⟨h₃, hhas₃⟩ := keeps_string.required hlocale hnames hw₃
  obtain ⟨h₄, hhas₄⟩ := keeps_boolean.defaulted ⟨.bool false, rfl⟩ hexpired hnames hw₄
  obtain ⟨h₅, hhas₅⟩ := keeps_boolean.defaulted ⟨.bool false, rfl⟩ hvalid hnames hw₅
  obtain ⟨h₆, hhas₆⟩ := keeps_nullable_integer.optional hremaining hnames hw₆
  have hmembers : members "ApiSession" SessionInfo.fields (.obj ms') = .ok ms' :=
    members_of_fields _ hnames ⟨hhas₁, hhas₂, hhas₃, hhas₄, hhas₅, hhas₆⟩
  simp only [SessionInfo.decode, hmembers, h₁, h₂, h₃, h₄, h₅, h₆, bind, Except.bind, pure, Except.pure]

theorem keeps_group : Keeps SettingsGroup.decode SettingsGroup.Writes := by
  intro j g hj j' hw
  obtain ⟨ms, -, h⟩ := bind_eq_ok hj
  obtain ⟨id, hid, h⟩ := bind_eq_ok h
  obtain ⟨displayName, hname, h⟩ := bind_eq_ok h
  cases h
  obtain ⟨ms', rfl, hnames, hfields⟩ := hw
  simp only [List.forall_mem_cons] at hfields
  obtain ⟨hw₁, hw₂, -⟩ := hfields
  obtain ⟨h₁, hhas₁⟩ := keeps_string.required hid hnames hw₁
  obtain ⟨h₂, hhas₂⟩ := keeps_string.required hname hnames hw₂
  have hmembers : members "ApiSettingsGroup" SettingsGroup.fields (.obj ms') = .ok ms' :=
    members_of_fields _ hnames ⟨hhas₁, hhas₂⟩
  simp only [SettingsGroup.decode, hmembers, h₁, h₂, bind, Except.bind, pure, Except.pure]

theorem keeps_setting : Keeps Setting.decode Setting.Writes := by
  intro j s hj j' hw
  obtain ⟨ms, -, h⟩ := bind_eq_ok hj
  obtain ⟨key, hkey, h⟩ := bind_eq_ok h
  obtain ⟨displayName, hname, h⟩ := bind_eq_ok h
  obtain ⟨groupId, hgroup, h⟩ := bind_eq_ok h
  obtain ⟨value, hvalue, h⟩ := bind_eq_ok h
  cases h
  obtain ⟨ms', rfl, hnames, hfields⟩ := hw
  simp only [List.forall_mem_cons] at hfields
  obtain ⟨hw₁, hw₂, hw₃, hw₄, -⟩ := hfields
  obtain ⟨h₁, hhas₁⟩ := keeps_string.required hkey hnames hw₁
  obtain ⟨h₂, hhas₂⟩ := keeps_nullable_string.optional hname hnames hw₂
  obtain ⟨h₃, hhas₃⟩ := keeps_nullable_string.optional hgroup hnames hw₃
  obtain ⟨h₄, hhas₄⟩ := keeps_nullable_any.optional hvalue hnames hw₄
  have hmembers : members "ApiSetting" Setting.fields (.obj ms') = .ok ms' :=
    members_of_fields _ hnames ⟨hhas₁, hhas₂, hhas₃, hhas₄⟩
  simp only [Setting.decode, hmembers, h₁, h₂, h₃, h₄, bind, Except.bind, pure, Except.pure]

theorem keeps_settings : Keeps ProductSettings.decode ProductSettings.Writes := by
  intro j s hj j' hw
  obtain ⟨ms, -, h⟩ := bind_eq_ok hj
  obtain ⟨groups, hgroups, h⟩ := bind_eq_ok h
  obtain ⟨settings, hsettings, h⟩ := bind_eq_ok h
  cases h
  obtain ⟨ms', rfl, hnames, hfields⟩ := hw
  simp only [List.forall_mem_cons] at hfields
  obtain ⟨hw₁, hw₂, -⟩ := hfields
  obtain ⟨h₁, hhas₁⟩ := (keeps_list keeps_group).defaulted ⟨.arr [], rfl⟩ hgroups hnames hw₁
  obtain ⟨h₂, hhas₂⟩ := (keeps_list keeps_setting).defaulted ⟨.arr [], rfl⟩ hsettings hnames hw₂
  have hmembers : members "ApiProductSettings" ProductSettings.fields (.obj ms') = .ok ms' :=
    members_of_fields _ hnames ⟨hhas₁, hhas₂⟩
  simp only [ProductSettings.decode, hmembers, h₁, h₂, bind, Except.bind, pure, Except.pure]

/-! ## Encoders -/

/-- An object that lists the fields in their order is one that has them. -/
theorem record_of_members {fields : List (String × (Json → Prop))} {ms : List (String × Json)}
    (names : List Field) (hdistinct : (names.map Field.name).Nodup)
    (hnames : ms.map Prod.fst = names.map Field.name)
    (hfields : List.Forall₂ (fun f m => f.1 = m.1 ∧ f.2 m.2) fields ms) : Record fields (.obj ms) := by
  refine ⟨ms, rfl, hnames ▸ hdistinct, ?_⟩
  clear hnames
  induction hfields with
  | nil => exact List.forall_mem_nil _
  | cons hfm _ ih =>
      refine List.forall_mem_cons.2 ⟨⟨_, hfm.1 ▸ List.mem_cons_self, hfm.2⟩, fun f hf => ?_⟩
      obtain ⟨v, hv, hw⟩ := ih f hf
      exact ⟨v, List.mem_cons_of_mem _ hv, hw⟩

section

variable {α : Type} {W : Format α} {e : α → Json}

theorem listOf_map (h : ∀ a, W a (e a)) (as : List α) : listOf W as (.arr (as.map e)) := by
  refine ⟨_, rfl, ?_⟩
  induction as with
  | nil => exact .nil
  | cons a as ih => exact .cons (h a) ih

theorem orNull_map (o : Option α) : orNull (exactly e) o (.ofOption (o.map e)) := by
  cases o <;> rfl

end

theorem listOf_strings (l : List String) : listOf (exactly .str) l (.strings l) :=
  listOf_map (W := exactly .str) (fun _ => rfl) l

theorem orNull_ofString? (o : Option String) : orNull (exactly .str) o (.ofString? o) := by
  cases o <;> rfl

theorem orNull_ofOption (o : Option Json) : orNull (exactly id) o (.ofOption o) := by
  cases o <;> rfl

theorem TeamRecord.writes_encode (t : TeamRecord) : t.Writes t.encode :=
  record_of_members TeamRecord.fields (by decide) rfl
    (.cons ⟨rfl, rfl⟩ (.cons ⟨rfl, orNull_ofString? _⟩ (.cons ⟨rfl, orNull_ofString? _⟩
      (.cons ⟨rfl, listOf_strings _⟩ (.cons ⟨rfl, orNull_map _⟩ .nil)))))

theorem ConnectionGrant.writes_encode (g : ConnectionGrant) : g.Writes g.encode :=
  record_of_members ConnectionGrant.fields (by decide) rfl
    (.cons ⟨rfl, rfl⟩ (.cons ⟨rfl, rfl⟩ (.cons ⟨rfl, rfl⟩ .nil)))

theorem SessionInfo.writes_encode (s : SessionInfo) : s.Writes s.encode :=
  record_of_members SessionInfo.fields (by decide) rfl
    (.cons ⟨rfl, rfl⟩ (.cons ⟨rfl, rfl⟩ (.cons ⟨rfl, rfl⟩ (.cons ⟨rfl, rfl⟩ (.cons ⟨rfl, rfl⟩
      (.cons ⟨rfl, orNull_map _⟩ .nil))))))

theorem SettingsGroup.writes_encode (g : SettingsGroup) : g.Writes g.encode :=
  record_of_members SettingsGroup.fields (by decide) rfl (.cons ⟨rfl, rfl⟩ (.cons ⟨rfl, rfl⟩ .nil))

theorem Setting.writes_encode (s : Setting) : s.Writes s.encode :=
  record_of_members Setting.fields (by decide) rfl
    (.cons ⟨rfl, rfl⟩ (.cons ⟨rfl, orNull_ofString? _⟩ (.cons ⟨rfl, orNull_ofString? _⟩
      (.cons ⟨rfl, orNull_ofOption _⟩ .nil))))

theorem ProductSettings.writes_encode (s : ProductSettings) : s.Writes s.encode :=
  record_of_members ProductSettings.fields (by decide) rfl
    (.cons ⟨rfl, listOf_map SettingsGroup.writes_encode _⟩
      (.cons ⟨rfl, listOf_map Setting.writes_encode _⟩ .nil))

/-! ## Reading, writing and reading again -/

/-- A record survives: its encoding has all its fields, and to read and write it once more gives the
same. -/
structure Survives {α : Type} (d : Decoder α) (e : α → Json) (W : Format α) (names : List String) :
    Prop where
  /-- The encoding has every field, under its name. -/
  complete : ∀ a, ∃ ms, e a = .obj ms ∧ ms.map Prod.fst = names
  /-- What was read is read again from its encoding. -/
  again : ∀ j a, d j = .ok a → d (e a) = .ok a
  /-- To read and to write twice is to do so once. -/
  idempotent : ∀ j, ((d j).map e >>= fun j' => (d j').map e) = (d j).map e
  /-- The encoding is one way to write the record. -/
  writes : ∀ a, W a (e a)
  /-- It is read again from every way to write it, with the members in any order and others among
  them. -/
  anyOrder : ∀ j a, d j = .ok a → ∀ j', W a j' → d j' = .ok a

theorem Keeps.survives {α : Type} {d : Decoder α} {e : α → Json} {W : Format α} {names : List String}
    (hkeeps : Keeps d W) (hwrites : ∀ a, W a (e a))
    (hcomplete : ∀ a, ∃ ms, e a = .obj ms ∧ ms.map Prod.fst = names) : Survives d e W names where
  complete := hcomplete
  again j a hj := hkeeps j a hj _ (hwrites a)
  idempotent j := by
    cases hj : d j with
    | error fault => rfl
    | ok a =>
        show (d (e a)).map e = _
        rw [hkeeps j a hj _ (hwrites a)]
  writes := hwrites
  anyOrder := hkeeps

/-- Teams, grants, sessions and settings, and the groups and settings among these, survive. Nothing is
asked of the values they are read from: they may be objects or arrays, with fields left out, with `null`
for fields, and with members that belong to no record. -/
theorem records_survive :
    Survives TeamRecord.decode TeamRecord.encode TeamRecord.Writes
      ["teamId", "teamName", "description", "teamPermissions", "metaParameters"] ∧
    Survives ConnectionGrant.decode ConnectionGrant.encode ConnectionGrant.Writes
      ["connectionId", "subjectId", "subjectType"] ∧
    Survives SessionInfo.decode SessionInfo.encode SessionInfo.Writes
      ["createTime", "lastAccessTime", "locale", "cacheExpired", "valid", "remainingTime"] ∧
    Survives SettingsGroup.decode SettingsGroup.encode SettingsGroup.Writes ["id", "displayName"] ∧
    Survives Setting.decode Setting.encode Setting.Writes ["key", "displayName", "groupId", "value"] ∧
    Survives ProductSettings.decode ProductSettings.encode ProductSettings.Writes
      ["groups", "settings"] := by
  refine ⟨?team, ?grant, ?session, ?group, ?setting, ?settings⟩
  case team => exact keeps_team.survives TeamRecord.writes_encode fun _ => ⟨_, rfl, rfl⟩
  case grant => exact keeps_grant.survives ConnectionGrant.writes_encode fun _ => ⟨_, rfl, rfl⟩
  case session => exact keeps_session.survives SessionInfo.writes_encode fun _ => ⟨_, rfl, rfl⟩
  case group => exact keeps_group.survives SettingsGroup.writes_encode fun _ => ⟨_, rfl, rfl⟩
  case setting => exact keeps_setting.survives Setting.writes_encode fun _ => ⟨_, rfl, rfl⟩
  case settings => exact keeps_settings.survives ProductSettings.writes_encode fun _ => ⟨_, rfl, rfl⟩

/-- An array of the fields, and an object in another order that has a member more and lacks two, are one
team. -/
example :
    TeamRecord.decode (.arr [.str "t", .null, .str "all", .arr [.str "edit"], .null]) =
      TeamRecord.decode (.obj [("extra", .int 1), ("teamPermissions", .arr [.str "edit"]),
        ("description", .str "all"), ("teamId", .str "t")]) :=
  rfl

end Larder.Api
