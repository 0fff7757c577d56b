import Cadence.Proofs.NumberValues
import Cadence.Proofs.TrimmedTexts
import Cadence.Settings.Environment

/-!
# Accepted settings

Which settings fields or an environment can describe: the port and the scheme of the database are among those that are
allowed, and no duration is at most zero, but it may be no number. The base address neither begins with a blank nor ends
with a slash, but it can be empty, and it can end with a blank. Settings are described by their own fields unless it is.
-/

namespace Cadence

namespace Checked

variable {α β : Type} {b : β}

theorem map_eq_valid {f : α → β} {c : Checked α} : f <$> c = .valid b ↔ ∃ a, c = .valid a ∧ f a = b := by
  show c.map f = .valid b ↔ _
  cases c <;> simp [map]

theorem seq_eq_valid {f : Checked (α → β)} {c : Checked α} :
    f <*> c = .valid b ↔ ∃ g a, f = .valid g ∧ c = .valid a ∧ b = g a := by
  show f.apply c = .valid b ↔ _
  cases f <;> cases c <;> simp [apply, eq_comm]

theorem andThen_eq_valid {c : Checked α} {next : α → Checked β} :
    c.andThen next = .valid b ↔ ∃ a, c = .valid a ∧ next a = .valid b := by
  cases c <;> simp [andThen]

theorem inside_eq_valid {c : Checked β} {place : Place} : c.inside place = .valid b ↔ c = .valid b := by
  cases c <;> simp [inside]

theorem toOutcome_eq_ok {schema : String} {c : Checked β} : c.toOutcome schema = .ok b ↔ c = .valid b := by
  cases c <;> simp [toOutcome]

end Checked

namespace Schema

variable {α : Type} {data : Members} {name : String} {fallback x : α} {read : Json → Checked α} {v : Json}

theorem optional_of_get? (h : data.get? name = some v) (hread : read v = .valid x) :
    optional data name fallback read = .valid x := by
  rw [optional, h]
  exact Checked.inside_eq_valid.mpr hread

/-- A field that is given is read, and any other has its standard value. -/
theorem optional_eq_valid :
    optional data name fallback read = .valid x ↔
      data.get? name = none ∧ x = fallback ∨ ∃ v, data.get? name = some v ∧ read v = .valid x := by
  unfold optional
  cases data.get? name with
  | none => simp [eq_comm]
  | some v => simp [Checked.inside_eq_valid]

/-- What is true of the standard value and of all that is read is true of the field. -/
theorem of_optional {p : α → Prop} (h : optional data name fallback read = .valid x) (hfallback : p fallback)
    (hread : ∀ v, read v = .valid x → p x) : p x := by
  rcases optional_eq_valid.mp h with ⟨-, rfl⟩ | ⟨v, -, hv⟩
  · exact hfallback
  · exact hread v hv

theorem text_eq_valid {s : String} : text v = .valid s ↔ v = .str s := by
  cases v <;> simp [text, Checked.complain]

end Schema

namespace Binary64

/-- Whether a number stands for a quantity above zero, which may be infinite. -/
def IsAboveZero (x : Binary64) : Prop := ∃ q, x.quantity? = some q ∧ Quantity.exact 0 < q

/-- A number is refused for being at most zero unless it is above zero or no number. -/
theorem not_below_iff {x : Binary64} :
    ¬(x.compareInt? 0 = some .lt ∨ x.compareInt? 0 = some .eq) ↔ x = .nan ∨ x.IsAboveZero := by
  cases hx : x.quantity? with
  | none =>
    obtain rfl := quantity?_eq_none.mp hx
    exact iff_of_true (by decide) (.inl rfl)
  | some q =>
    have hnan : x ≠ .nan := fun heq => by rw [quantity?_eq_none.mpr heq] at hx; cases hx
    have hzero : ((0 : ℤ) / (1 : ℕ) : ℚ) = 0 := by norm_num
    have horder : x.compareInt? 0 = some (cmp q (.exact 0)) := by
      rw [compareInt?, compareRatio?_eq hx 0 Nat.zero_lt_one, hzero]
    rw [horder, or_iff_right hnan, IsAboveZero, hx, Option.some_inj, Option.some_inj, cmp_eq_lt_iff, cmp_eq_eq_iff,
      not_or, not_lt]
    constructor
    · exact fun h => ⟨q, rfl, lt_of_le_of_ne h.1 (Ne.symm h.2)⟩
    · rintro ⟨_, ⟨⟩, h⟩
      exact ⟨h.le, h.ne'⟩

end Binary64

namespace Settings

/-! ### Single fields -/

variable {v : Json} {name : String}

theorem readPort_eq_valid {n : ℕ} :
    readPort v = .valid n ↔ Schema.integer v = .valid (n : ℤ) ∧ 1 ≤ n ∧ n ≤ 65535 := by
  rw [readPort, Checked.andThen_eq_valid]
  constructor
  · rintro ⟨i, hi, h⟩
    split at h
    · rename_i hrange
      cases h
      rw [Int.toNat_of_nonneg (by omega)]
      exact ⟨hi, by omega, by omega⟩
    · cases h
  · rintro ⟨hi, hlow, hhigh⟩
    refine ⟨n, hi, ?_⟩
    rw [if_pos (by omega), Int.toNat_natCast]

theorem readCount_eq_valid {n : ℕ} : readCount name v = .valid n ↔ Schema.integer v = .valid (n : ℤ) := by
  rw [readCount, Checked.andThen_eq_valid]
  constructor
  · rintro ⟨i, hi, h⟩
    split at h
    · cases h
    · cases h
      rwa [Int.toNat_of_nonneg (by omega)]
  · intro hi
    refine ⟨n, hi, ?_⟩
    rw [if_neg (by omega), Int.toNat_natCast]

theorem readSeconds_eq_valid {x : Binary64} :
    readSeconds name v = .valid x ↔ Schema.number v = .valid x ∧ (x = .nan ∨ x.IsAboveZero) := by
  rw [readSeconds, Checked.andThen_eq_valid]
  constructor
  · rintro ⟨y, hy, h⟩
    split at h
    · cases h
    · rename_i hbelow
      cases h
      exact ⟨hy, Binary64.not_below_iff.mp hbelow⟩
  · rintro ⟨hx, hkept⟩
    exact ⟨x, hx, if_neg (Binary64.not_below_iff.mpr hkept)⟩

theorem readDatabaseUrl_eq_valid {url : String} :
    readDatabaseUrl v = .valid url ↔ v = .str url ∧ databaseScheme url ∈ databaseSchemes := by
  rw [readDatabaseUrl, Checked.andThen_eq_valid]
  constructor
  · rintro ⟨given, hgiven, h⟩
    rw [Schema.text_eq_valid] at hgiven
    split at h
    · cases h
    · split at h
      · rename_i hscheme
        cases h
        exact ⟨hgiven, List.contains_iff_mem.mp hscheme⟩
      · cases h
  · rintro ⟨rfl, hscheme⟩
    have hempty : url ≠ "" := by
      rintro rfl
      exact absurd hscheme (by decide)
    exact ⟨url, rfl, by rw [if_neg hempty, if_pos (List.contains_iff_mem.mpr hscheme)]⟩

/-! ### The base address -/

/-- An address without blanks around it, and then without slashes at its end. -/
def tidied (url : String) : String := String.ofList ((Text.stripChars url.toList).rdropWhile (· = '/'))

theorem readBaseUrl_eq_valid {url : String} :
    readBaseUrl v = .valid url ↔ ∃ given, v = .str given ∧ Text.isBlankText given = false ∧ url = tidied given := by
  rw [readBaseUrl, Checked.andThen_eq_valid]
  constructor
  · rintro ⟨given, hgiven, h⟩
    rw [Schema.text_eq_valid] at hgiven
    split at h
    · cases h
    · rename_i hblank
      cases h
      exact ⟨given, hgiven, Bool.eq_false_iff.mpr hblank, rfl⟩
  · rintro ⟨given, rfl, hblank, rfl⟩
    exact ⟨given, rfl, by rw [if_neg (Bool.eq_false_iff.mp hblank)]; rfl⟩

/-- A base address as it is left: no blank at its beginning, and no slash at its end. -/
structure IsTidied (url : String) : Prop where
  first : ∀ c ∈ url.toList.head?, Text.isBlank c = false
  last : ∀ c ∈ url.toList.getLast?, c ≠ '/'

/-- Whether the last character of an address is a blank. -/
def EndsBlank (url : String) : Prop := ∃ c ∈ url.toList.getLast?, Text.isBlank c = true

theorem isTidied_tidied (url : String) : IsTidied (tidied url) := by
  constructor
  · intro c hc
    obtain ⟨cut, hcut⟩ : (Text.stripChars url.toList).rdropWhile (· = '/') <+: Text.stripChars url.toList :=
      List.rdropWhile_prefix _ _
    rw [tidied, String.toList_ofList] at hc
    refine (Text.isTrimmed_stripChars url.toList).first c ?_
    rw [← hcut, List.head?_append, hc, Option.some_or]
    rfl
  · rintro c hc rfl
    rw [tidied, String.toList_ofList] at hc
    have hne : (Text.stripChars url.toList).rdropWhile (· = '/') ≠ [] := List.ne_nil_of_mem (List.mem_of_getLast? hc)
    have hlast := List.rdropWhile_last_not (p := fun c => decide (c = '/')) _ hne
    rw [List.getLast?_eq_getLast_of_ne_nil hne] at hc
    exact hlast (decide_eq_true (Option.some.inj hc))

theorem IsTidied.isBlankText_eq {url : String} (h : IsTidied url) (hne : url ≠ "") : Text.isBlankText url = false := by
  have hchars : url.toList ≠ [] := fun hnil => hne (String.toList_eq_nil_iff.mp hnil)
  obtain ⟨c, rest, hcons⟩ := List.exists_cons_of_ne_nil hchars
  have hc : Text.isBlank c = false := h.first c (by rw [hcons]; rfl)
  rw [Text.isBlankText, hcons, List.all_cons, hc, Bool.false_and]

theorem IsTidied.rdropWhile_slash {url : String} (h : IsTidied url) :
    url.toList.rdropWhile (· = '/') = url.toList := by
  rw [List.rdropWhile_eq_self_iff]
  intro hne hlast
  exact h.last _ (List.getLast?_eq_getLast_of_ne_nil hne) (of_decide_eq_true hlast)

/-- A slash after an address that is tidied is taken off again. -/
theorem IsTidied.tidied_slash {url : String} (h : IsTidied url) :
    Text.isBlankText (url ++ "/") = false ∧ tidied (url ++ "/") = url := by
  have hslash : Text.isBlank '/' = false := by decide
  have htrimmed : Text.IsTrimmed (url.toList ++ ['/']) := by
    constructor
    · intro c hc
      rw [List.head?_append] at hc
      cases hfirst : url.toList.head? with
      | none =>
        rw [hfirst, Option.none_or] at hc
        cases hc
        exact hslash
      | some d =>
        rw [hfirst, Option.some_or] at hc
        cases hc
        exact h.first c hfirst
    · intro c hc
      rw [List.getLast?_concat] at hc
      cases hc
      exact hslash
  have hchars : (url ++ "/").toList = url.toList ++ ['/'] := by simp
  constructor
  · rw [Text.isBlankText, hchars, List.all_append]
    simp [hslash]
  · rw [tidied, hchars, htrimmed.stripChars, List.rdropWhile_concat_pos _ _ _ (by decide), h.rdropWhile_slash,
      String.ofList_toList]

/-- Tidying an address once more changes it if and only if it ends with a blank. -/
theorem IsTidied.tidied_eq_iff {url : String} (h : IsTidied url) : tidied url = url ↔ ¬EndsBlank url := by
  constructor
  · rintro heq ⟨c, hc, hblank⟩
    have hchars : (Text.stripChars url.toList).rdropWhile (· = '/') = url.toList := by
      rw [← String.toList_ofList (l := (Text.stripChars url.toList).rdropWhile (· = '/'))]
      exact congrArg String.toList heq
    -- The address is a part of its trimmed text, which is no longer.
    have hprefix : url.toList <+: Text.stripChars url.toList := by
      have hpart := List.rdropWhile_prefix (· = '/') (Text.stripChars url.toList)
      rwa [hchars] at hpart
    have htrimmed := hprefix.eq_of_length_le (Text.length_stripChars_le _)
    have hlast := (Text.isTrimmed_stripChars url.toList).last c (htrimmed ▸ hc)
    rw [hblank] at hlast
    cases hlast
  · intro hend
    have htrimmed : Text.IsTrimmed url.toList := by
      refine ⟨h.first, fun c hc => ?_⟩
      rw [← Bool.not_eq_true]
      exact fun hblank => hend ⟨c, hc, hblank⟩
    rw [tidied, htrimmed.stripChars, h.rdropWhile_slash, String.ofList_toList]

/-! ### All fields -/

variable {data : Members} {s : Settings}

/-- What the fields of accepted settings were read as, where more is checked than their kind. -/
theorem readFields_checked (h : readFields data = .valid s) :
    Schema.optional data "port" 8000 readPort = .valid s.port ∧
      Schema.optional data "database_url" "sqlite:///./outreach_engine.db" readDatabaseUrl = .valid s.databaseUrl ∧
      Schema.optional data "default_max_actions" 20 (readCount "default_max_actions") = .valid s.defaultMaxActions ∧
      Schema.optional data "execution_timeout" (Binary64.ofInt 300) (readSeconds "execution_timeout") =
        .valid s.executionTimeout ∧
      Schema.optional data "whatsapp_verification_max_age_days" 30 (readCount "whatsapp_verification_max_age_days") =
        .valid s.verificationMaxAgeDays ∧
      Schema.optional data "whatsapp_api_base_url" "https://graph.facebook.com" readBaseUrl = .valid s.apiBaseUrl ∧
      Schema.optional data "provider_timeout" (Binary64.ofInt 15) (readSeconds "provider_timeout") =
        .valid s.providerTimeout ∧
      Schema.optional data "slow_request_threshold" (Binary64.ofInt 5) (readSeconds "slow_request_threshold") =
        .valid s.slowRequestThreshold := by
  unfold readFields at h
  dsimp only at h
  -- The fields are taken off from the last one on.
  iterate 2
    rw [Checked.seq_eq_valid] at h
    obtain ⟨_, _, h, -, rfl⟩ := h
  rw [Checked.seq_eq_valid] at h
  obtain ⟨_, _, h, hslow, rfl⟩ := h
  iterate 6
    rw [Checked.seq_eq_valid] at h
    obtain ⟨_, _, h, -, rfl⟩ := h
  rw [Checked.seq_eq_valid] at h
  obtain ⟨_, _, h, hprovider, rfl⟩ := h
  iterate 2
    rw [Checked.seq_eq_valid] at h
    obtain ⟨_, _, h, -, rfl⟩ := h
  rw [Checked.seq_eq_valid] at h
  obtain ⟨_, _, h, hbase, rfl⟩ := h
  rw [Checked.seq_eq_valid] at h
  obtain ⟨_, _, h, hage, rfl⟩ := h
  rw [Checked.seq_eq_valid] at h
  obtain ⟨_, _, h, -, rfl⟩ := h
  rw [Checked.seq_eq_valid] at h
  obtain ⟨_, _, h, hexecution, rfl⟩ := h
  rw [Checked.seq_eq_valid] at h
  obtain ⟨_, _, h, hcap, rfl⟩ := h
  iterate 3
    rw [Checked.seq_eq_valid] at h
    obtain ⟨_, _, h, -, rfl⟩ := h
  rw [Checked.seq_eq_valid] at h
  obtain ⟨_, _, h, hurl, rfl⟩ := h
  rw [Checked.seq_eq_valid] at h
  obtain ⟨_, _, h, -, rfl⟩ := h
  rw [Checked.seq_eq_valid] at h
  obtain ⟨_, _, h, hport, rfl⟩ := h
  iterate 3
    rw [Checked.seq_eq_valid] at h
    obtain ⟨_, _, h, -, rfl⟩ := h
  rw [Checked.map_eq_valid] at h
  obtain ⟨_, -, rfl⟩ := h
  exact ⟨hport, hurl, hcap, hexecution, hage, hbase, hprovider, hslow⟩

theorem each_text (items : List String) (index : ℕ) :
    Checked.each Schema.text index (items.map .str) = .valid items := by
  induction items generalizing index with
  | nil => rfl
  | cons first rest ih =>
    rw [List.map_cons, Checked.each, ih]
    rfl

theorem choice_label (level : Log.Level) :
    Schema.choice Log.Level.all Log.Level.label (.str level.label) = .valid level := by
  cases level <;> rfl

theorem nullable_ofText? (file : Option String) : Schema.nullable Schema.text (Json.ofText? file) = .valid file := by
  cases file <;> rfl

/-- The three durations, in seconds. -/
def durations (s : Settings) : List Binary64 := [s.executionTimeout, s.providerTimeout, s.slowRequestThreshold]

/-- The fields of settings are read as the settings themselves, with the base address tidied once more. -/
theorem readFields_toFields (hport : 1 ≤ s.port ∧ s.port ≤ 65535)
    (hurl : databaseScheme s.databaseUrl ∈ databaseSchemes) (hdurations : ∀ x ∈ s.durations, x = .nan ∨ x.IsAboveZero) :
    readFields s.toFields =
      ((readBaseUrl (.str s.apiBaseUrl)).inside (.field "whatsapp_api_base_url")).map fun url =>
        { s with apiBaseUrl := url } := by
  have hseconds (name : String) {x fallback : Binary64} (hget : s.toFields.get? name = some (.float x))
      (hx : x ∈ s.durations) : Schema.optional s.toFields name fallback (readSeconds name) = .valid x :=
    Schema.optional_of_get? hget (readSeconds_eq_valid.mpr ⟨rfl, hdurations x hx⟩)
  have hcount (name : String) {n fallback : ℕ} (hget : s.toFields.get? name = some (.nat n)) :
      Schema.optional s.toFields name fallback (readCount name) = .valid n :=
    Schema.optional_of_get? hget (readCount_eq_valid.mpr rfl)
  have htexts (name : String) {items fallback : List String}
      (hget : s.toFields.get? name = some (.arr (items.map .str))) :
      Schema.optional s.toFields name fallback (Schema.listOf Schema.text) = .valid items :=
    Schema.optional_of_get? hget (each_text items 0)
  have hport (fallback : ℕ) : Schema.optional s.toFields "port" fallback readPort = .valid s.port :=
    Schema.optional_of_get? rfl (readPort_eq_valid.mpr ⟨rfl, hport⟩)
  have hurl (fallback : String) :
      Schema.optional s.toFields "database_url" fallback readDatabaseUrl = .valid s.databaseUrl :=
    Schema.optional_of_get? rfl (readDatabaseUrl_eq_valid.mpr ⟨rfl, hurl⟩)
  have hbase (fallback : String) : Schema.optional s.toFields "whatsapp_api_base_url" fallback readBaseUrl =
      (readBaseUrl (.str s.apiBaseUrl)).inside (.field "whatsapp_api_base_url") := rfl
  have hlevel (fallback : Log.Level) :
      Schema.optional s.toFields "log_level" fallback (Schema.choice Log.Level.all Log.Level.label) =
        .valid s.logLevel :=
    Schema.optional_of_get? rfl (choice_label s.logLevel)
  have hfile (fallback : Option String) :
      Schema.optional s.toFields "log_file" fallback (Schema.nullable Schema.text) = .valid s.logFile :=
    Schema.optional_of_get? rfl (nullable_ofText? s.logFile)
  unfold readFields
  dsimp only
  rw [hport, hurl, hcount "default_max_actions" rfl, hseconds "execution_timeout" rfl (by simp [durations]),
    hcount "whatsapp_verification_max_age_days" rfl, hbase, hseconds "provider_timeout" rfl (by simp [durations]),
    hlevel, hfile, hseconds "slow_request_threshold" rfl (by simp [durations]), htexts "cors_origins" rfl,
    htexts "cors_methods" rfl]
  cases (readBaseUrl (.str s.apiBaseUrl)).inside (.field "whatsapp_api_base_url") <;> rfl

/-! ### Accepted settings -/

/-- Some fields describe the settings, or some environment does. -/
def Accepted (s : Settings) : Prop := (∃ data, ofFields data = .ok s) ∨ ∃ env, ofEnvironment env = .ok s

/-- What is true of accepted settings, and of no others. -/
structure IsChecked (s : Settings) : Prop where
  port : 1 ≤ s.port ∧ s.port ≤ 65535
  databaseUrl : databaseScheme s.databaseUrl ∈ databaseSchemes
  durations : ∀ x ∈ s.durations, x = .nan ∨ x.IsAboveZero
  apiBaseUrl : IsTidied s.apiBaseUrl

/-- What accepted settings are expected to be. -/
structure IsSound (s : Settings) : Prop where
  port : 1 ≤ s.port ∧ s.port ≤ 65535
  databaseUrl : databaseScheme s.databaseUrl ∈ databaseSchemes
  durations : ∀ x ∈ s.durations, x.IsAboveZero
  apiBaseUrl_given : s.apiBaseUrl ≠ ""
  apiBaseUrl_trimmed : Text.IsTrimmed s.apiBaseUrl.toList
  apiBaseUrl_last : ∀ c ∈ s.apiBaseUrl.toList.getLast?, c ≠ '/'

theorem ofFields_of_ofEnvironment {env : Environment} (h : ofEnvironment env = .ok s) :
    ∃ data, environmentFields env fieldReadings = .ok data ∧ ofFields data = .ok s := by
  unfold ofEnvironment at h
  cases hdata : environmentFields env fieldReadings with
  | error fault =>
    rw [hdata] at h
    cases h
  | ok data =>
    rw [hdata] at h
    exact ⟨data, rfl, h⟩

theorem isChecked_of_ofFields (h : ofFields data = .ok s) : s.IsChecked := by
  obtain ⟨hport, hurl, -, hexecution, -, hbase, hprovider, hslow⟩ := readFields_checked (Checked.toOutcome_eq_ok.mp h)
  have hseconds {name : String} {x fallback : Binary64} (hfallback : fallback = .nan ∨ fallback.IsAboveZero)
      (hx : Schema.optional data name fallback (readSeconds name) = .valid x) : x = .nan ∨ x.IsAboveZero :=
    Schema.of_optional (p := fun x => x = .nan ∨ x.IsAboveZero) hx hfallback fun _ hv => (readSeconds_eq_valid.mp hv).2
  constructor
  · refine Schema.of_optional (p := fun n => 1 ≤ n ∧ n ≤ 65535) hport ?_ fun v hv => (readPort_eq_valid.mp hv).2
    decide
  · refine Schema.of_optional (p := fun url => databaseScheme url ∈ databaseSchemes) hurl ?_ fun v hv =>
      (readDatabaseUrl_eq_valid.mp hv).2
    decide
  · simp only [durations, List.forall_mem_cons]
    refine ⟨hseconds ?_ hexecution, hseconds ?_ hprovider, hseconds ?_ hslow, List.forall_mem_nil _⟩ <;>
      exact Binary64.not_below_iff.mp (by decide)
  · refine Schema.of_optional (p := IsTidied) hbase ?_ fun v hv => ?_
    · exact ⟨by rintro c ⟨⟩; decide, by rintro c ⟨⟩; decide⟩
    · obtain ⟨given, -, -, hgiven⟩ := readBaseUrl_eq_valid.mp hv
      rw [hgiven]
      exact isTidied_tidied given

/-- The complaint about settings whose base address has become empty. -/
def emptyAddress : Fault :=
  .invalid "AppConfig" [⟨[.field "whatsapp_api_base_url"], .rule "WhatsApp API base URL cannot be empty"⟩]

/-- What the fields of settings describe. -/
theorem IsChecked.ofFields_toFields (h : s.IsChecked) :
    ofFields s.toFields =
      if s.apiBaseUrl = "" then .error emptyAddress else .ok { s with apiBaseUrl := tidied s.apiBaseUrl } := by
  rw [ofFields, readFields_toFields h.port h.databaseUrl h.durations]
  by_cases hempty : s.apiBaseUrl = ""
  · rw [if_pos hempty, hempty]
    rfl
  · have hbase : readBaseUrl (.str s.apiBaseUrl) = .valid (tidied s.apiBaseUrl) :=
      readBaseUrl_eq_valid.mpr ⟨_, rfl, h.apiBaseUrl.isBlankText_eq hempty, rfl⟩
    rw [if_neg hempty, hbase]
    rfl

/-- The fields of settings describe the settings again unless the base address is empty or ends with a blank. -/
theorem IsChecked.ofFields_toFields_iff (h : s.IsChecked) :
    ofFields s.toFields = .ok s ↔ s.apiBaseUrl ≠ "" ∧ ¬EndsBlank s.apiBaseUrl := by
  rw [h.ofFields_toFields, ← h.apiBaseUrl.tidied_eq_iff]
  by_cases hempty : s.apiBaseUrl = ""
  · rw [if_pos hempty]
    exact iff_of_false nofun fun hne => hne.1 hempty
  · rw [if_neg hempty, Except.ok.injEq, and_iff_right hempty]
    exact ⟨fun heq => congrArg Settings.apiBaseUrl heq, fun heq => by rw [heq]⟩

/-- Settings are described by their own fields with a slash after the base address. -/
theorem IsChecked.ofFields_slash (h : s.IsChecked) :
    ofFields { s with apiBaseUrl := s.apiBaseUrl ++ "/" }.toFields = .ok s := by
  obtain ⟨hblank, htidied⟩ := h.apiBaseUrl.tidied_slash
  have hbase : readBaseUrl (.str (s.apiBaseUrl ++ "/")) = .valid s.apiBaseUrl :=
    readBaseUrl_eq_valid.mpr ⟨_, rfl, hblank, htidied.symm⟩
  have hread := readFields_toFields (s := { s with apiBaseUrl := s.apiBaseUrl ++ "/" }) h.port h.databaseUrl h.durations
  rw [ofFields, hread, hbase]
  rfl

theorem accepted_iff_isChecked : s.Accepted ↔ s.IsChecked := by
  constructor
  · rintro (⟨data, h⟩ | ⟨env, h⟩)
    · exact isChecked_of_ofFields h
    · obtain ⟨data, -, hdata⟩ := ofFields_of_ofEnvironment h
      exact isChecked_of_ofFields hdata
  · exact fun h => .inl ⟨_, h.ofFields_slash⟩

theorem IsChecked.isSound_iff (h : s.IsChecked) :
    s.IsSound ↔ (∀ x ∈ s.durations, x ≠ .nan) ∧ s.apiBaseUrl ≠ "" ∧ ¬EndsBlank s.apiBaseUrl := by
  constructor
  · intro hsound
    refine ⟨?_, hsound.apiBaseUrl_given, ?_⟩
    · rintro x hx rfl
      obtain ⟨q, hq, -⟩ := hsound.durations _ hx
      cases hq
    · rintro ⟨c, hc, hblank⟩
      rw [hsound.apiBaseUrl_trimmed.last c hc] at hblank
      cases hblank
  · rintro ⟨hnumbers, hgiven, hend⟩
    refine ⟨h.port, h.databaseUrl, fun x hx => (h.durations x hx).resolve_left (hnumbers x hx), hgiven,
      ⟨h.apiBaseUrl.first, fun c hc => ?_⟩, h.apiBaseUrl.last⟩
    rw [← Bool.not_eq_true]
    exact fun hblank => hend ⟨c, hc, hblank⟩

/-- Exactly the settings that are checked so are accepted. Of these, all are as expected in which no duration is no
number and the base address neither is empty nor ends with a blank; and their fields describe them again if and only if
the base address is as expected. The counts are the integers that the fields give, so none is negative. -/
theorem accepted_settings (s : Settings) :
    (s.Accepted ↔ s.IsChecked) ∧
      (s.Accepted →
        (s.IsSound ↔ (∀ x ∈ s.durations, x ≠ .nan) ∧ s.apiBaseUrl ≠ "" ∧ ¬EndsBlank s.apiBaseUrl) ∧
        (ofFields s.toFields = .ok s ↔ s.apiBaseUrl ≠ "" ∧ ¬EndsBlank s.apiBaseUrl)) ∧
      ∀ data, ofFields data = .ok s →
        (∀ v, data.get? "default_max_actions" = some v → Schema.integer v = .valid (s.defaultMaxActions : ℤ)) ∧
        ∀ v, data.get? "whatsapp_verification_max_age_days" = some v →
          Schema.integer v = .valid (s.verificationMaxAgeDays : ℤ) := by
  refine ⟨accepted_iff_isChecked, fun haccepted => ?_, fun data h => ?_⟩
  · have hchecked := accepted_iff_isChecked.mp haccepted
    exact ⟨hchecked.isSound_iff, hchecked.ofFields_toFields_iff⟩
  · obtain ⟨-, -, hcap, -, hage, -⟩ := readFields_checked (Checked.toOutcome_eq_ok.mp h)
    have hcount {name : String} {n fallback : ℕ} (hn : Schema.optional data name fallback (readCount name) = .valid n)
        (v : Json) (hv : data.get? name = some v) : Schema.integer v = .valid (n : ℤ) := by
      rcases Schema.optional_eq_valid.mp hn with ⟨hnone, -⟩ | ⟨w, hw, hread⟩
      · rw [hv] at hnone
        cases hnone
      · obtain rfl : v = w := Option.some.inj (hv.symm.trans hw)
        exact readCount_eq_valid.mp hread
    exact ⟨hcount hcap, hcount hage⟩

/-- Blanks around the base address and the slash at its end are taken off, and a cap may be given as a text. -/
theorem accepted_settings_tidied :
    ∃ s, ofFields [("whatsapp_api_base_url", .str " https://a/ "), ("default_max_actions", .str "7")] = .ok s ∧
      s.IsSound ∧ ofFields s.toFields = .ok s ∧ Schema.integer (.str "7") = .valid (s.defaultMaxActions : ℤ) := by
  obtain ⟨s, h, hdurations, hbase⟩ : ∃ s,
      ofFields [("whatsapp_api_base_url", .str " https://a/ "), ("default_max_actions", .str "7")] = .ok s ∧
        s.durations = [.ofInt 300, .ofInt 15, .ofInt 5] ∧ s.apiBaseUrl = "https://a" := ⟨_, rfl, rfl, rfl⟩
  obtain ⟨-, hkept, hcounts⟩ := accepted_settings s
  obtain ⟨hsound, hagain⟩ := hkept (.inl ⟨_, h⟩)
  have hnumbers : ∀ x ∈ s.durations, x ≠ .nan := by
    rw [hdurations]
    decide
  have hend : s.apiBaseUrl ≠ "" ∧ ¬EndsBlank s.apiBaseUrl := by
    rw [hbase]
    exact ⟨by decide, by rintro ⟨c, ⟨⟩, hc⟩; exact absurd hc (by decide)⟩
  exact ⟨s, h, hsound.mpr ⟨hnumbers, hend⟩, hagain.mpr hend, (hcounts _ h).1 _ rfl⟩

/-- A base address of nothing but a slash is accepted and leaves an empty one. An address with a blank between the
slashes at its end is left with the blank. A duration that is no number is accepted. -/
theorem accepted_unsound :
    (∃ s, ofFields [("whatsapp_api_base_url", .str "/")] = .ok s ∧ s.apiBaseUrl = "" ∧ ¬s.IsSound ∧
        ofFields s.toFields = .error emptyAddress) ∧
      (∃ s, ofFields [("whatsapp_api_base_url", .str "https://a/ /")] = .ok s ∧ s.apiBaseUrl = "https://a/ " ∧
        ¬s.IsSound ∧ ofFields s.toFields ≠ .ok s) ∧
      ∃ s, ofFields [("execution_timeout", .float .nan)] = .ok s ∧ s.executionTimeout = .nan ∧ ¬s.IsSound := by
  refine ⟨?_, ?_, ?_⟩
  · obtain ⟨s, h, hempty⟩ : ∃ s, ofFields [("whatsapp_api_base_url", .str "/")] = .ok s ∧ s.apiBaseUrl = "" :=
      ⟨_, rfl, rfl⟩
    refine ⟨s, h, hempty, fun hsound => hsound.apiBaseUrl_given hempty, ?_⟩
    rw [(isChecked_of_ofFields h).ofFields_toFields, if_pos hempty]
  · obtain ⟨s, h, hblank⟩ : ∃ s,
        ofFields [("whatsapp_api_base_url", .str "https://a/ /")] = .ok s ∧ s.apiBaseUrl = "https://a/ " :=
      ⟨_, rfl, rfl⟩
    have hend : EndsBlank s.apiBaseUrl := by
      rw [hblank]
      exact ⟨' ', rfl, by decide⟩
    have hchecked := isChecked_of_ofFields h
    exact ⟨s, h, hblank, fun hsound => (hchecked.isSound_iff.mp hsound).2.2 hend,
      fun hagain => (hchecked.ofFields_toFields_iff.mp hagain).2 hend⟩
  · obtain ⟨s, h, hnan⟩ : ∃ s, ofFields [("execution_timeout", .float .nan)] = .ok s ∧ s.executionTimeout = .nan :=
      ⟨_, rfl, rfl⟩
    refine ⟨s, h, hnan, fun hsound => ?_⟩
    exact ((isChecked_of_ofFields h).isSound_iff.mp hsound).1 _ List.mem_cons_self hnan

end Settings

end Cadence
