import RemoteCall.Config.File
import RemoteCall.Proofs.Config.Records
import RemoteCall.Proofs.Text.Utf8

/-!
# Files that give a part of a configuration

A file in JSON may give any part of a configuration, in any order, with whatever else beside it, and so may the object
inside it that tells how a lost connection is made again. What is loaded has the parts that are given, and the defaults
for the rest.

* `ReconnectSettings.only`, `Config.only`: the given parts, and the defaults for the rest.
* `ReconnectSettings.GivenBy`, `Config.GivenBy`: an object gives these parts.
* `load_json`: what is loaded from such a file, and from the text of a whole configuration.
-/

namespace RemoteCall

open Json Config

section Defs

/-- A member of an object as it is printed. -/
def Json.Entry.ofMember (m : Member) : Entry := ⟨m.1, .bare (quote m.1), .bare m.2, spells_quote m.1⟩

namespace ReconnectSettings

/-- The settings with the given names, and the defaults for the rest. -/
def only (r : ReconnectSettings) (keys : List String) : ReconnectSettings :=
  let d : ReconnectSettings := {}
  ⟨if "interval_secs" ∈ keys then r.intervalSecs else d.intervalSecs,
    if "log_events" ∈ keys then r.logEvents else d.logEvents⟩

/-- The entries of an object give some of these settings, each at most once and in any order, among anything else. -/
def GivenBy (r : ReconnectSettings) (entries : List Entry) : Prop :=
  Names (r.members.map Prod.fst) (fun key t => (key, t) ∈ r.members) entries

/-- What is known of the settings when some keys have been read. -/
def known (r : ReconnectSettings) (keys : List String) : Given :=
  ⟨found keys "interval_secs" r.intervalSecs,
    found keys "log_events" r.logEvents⟩

end ReconnectSettings

namespace Config

/-- The parts with the given names, and the defaults for the rest. Of the settings for a lost connection those with the
names `inner` are given, if there are any settings. -/
def only (c : Config) (keys inner : List String) : Config :=
  let d : Config := {}
  ⟨if "remote_addr" ∈ keys then c.remoteAddr else d.remoteAddr,
    if "idle_time_secs" ∈ keys then c.idleTimeSecs else d.idleTimeSecs,
    if "connect_timeout_ms" ∈ keys then c.connectTimeoutMs else d.connectTimeoutMs,
    if "write_high_water_bytes" ∈ keys then c.writeHighWaterBytes else d.writeHighWaterBytes,
    if "write_timeout_ms" ∈ keys then c.writeTimeoutMs else d.writeTimeoutMs,
    if "heartbeat_requires_ack" ∈ keys then c.heartbeatRequiresAck else d.heartbeatRequiresAck,
    if "auto_reconnect" ∈ keys then c.autoReconnect.map (·.only inner) else none⟩

/-- The ways to write a part of a configuration: a number, a truth value and a missing part have one text, an address has
any text that is read as it, and settings are given by any object with the entries `inner`. -/
@[mk_iff]
inductive Gives (c : Config) (inner : List Entry) : String → List Char → Prop
  | address {t : List Char} (h : Spells c.remoteAddr t) : Gives c inner "remote_addr" t
  | settings {t : List Char} {r : ReconnectSettings} (hr : c.autoReconnect = some r) (ht : IsObject inner t)
      (h : r.GivenBy inner) : Gives c inner "auto_reconnect" t
  | member {key : String} {t : List Char} (h : (key, t) ∈ c.members)
      (hkey : key = "auto_reconnect" → c.autoReconnect = none) : Gives c inner key t

/-- The entries of an object give some of these parts, each at most once and in any order, among anything else. -/
def GivenBy (c : Config) (entries inner : List Entry) : Prop :=
  Names (c.members.map Prod.fst) (c.Gives inner) entries

/-- The entries that the settings for a lost connection are printed with. -/
def innerEntries (c : Config) : List Entry := (c.autoReconnect.elim [] (·.members)).map .ofMember

/-- What is known of a configuration when some keys have been read. -/
def known (c : Config) (inner keys : List String) : Given :=
  ⟨found keys "remote_addr" c.remoteAddr,
    found keys "idle_time_secs" c.idleTimeSecs,
    found keys "connect_timeout_ms" c.connectTimeoutMs,
    found keys "write_high_water_bytes" c.writeHighWaterBytes,
    found keys "write_timeout_ms" c.writeTimeoutMs,
    found keys "heartbeat_requires_ack" c.heartbeatRequiresAck,
    found keys "auto_reconnect" (c.autoReconnect.map (·.only inner))⟩

end Config

end Defs

variable {c : Config} {r : ReconnectSettings} {entries inner : List Entry} {keys : List String} {t : List Char}

/-! ## Objects as they are printed -/

theorem joined_eq_intercalate {α : Type} (text : α → List Char) (as : List α) :
    joined text as = [','].intercalate (as.map text) := by
  induction as with
  | nil => rfl
  | cons a as ih =>
    cases as with
    | nil => simp [joined, List.intercalate]
    | cons b as =>
      rw [joined, ih]
      simp [List.intercalate]

theorem isObject_ordered (members : List Member) : IsObject (members.map .ofMember) (ordered members) := by
  refine ⟨[], blank_nil, ?_⟩
  rw [joined_eq_intercalate, List.map_map]
  have hchars : Entry.chars ∘ Entry.ofMember = fun m : Member => quote m.1 ++ ':' :: m.2 := by
    funext m
    simp [Entry.chars, Entry.ofMember, Padded.fieldChars, Padded.bare, Padded.chars]
  rw [hchars]
  rfl

/-- The members of an object give what they give. -/
theorem names_ofMember {members : List Member} {Gives : String → List Char → Prop}
    (honce : (members.map Prod.fst).Nodup) (hgives : ∀ m ∈ members, Gives m.1 m.2) :
    Names (members.map Prod.fst) Gives (members.map .ofMember) := by
  have hkeys : (members.map Entry.ofMember).map Entry.key = members.map Prod.fst := List.map_map
  refine ⟨?_, ?_, ?_⟩
  · rw [hkeys]
    exact honce.filter _
  · intro e he _
    obtain ⟨m, hm, rfl⟩ := List.mem_map.mp he
    exact hgives m hm
  · intro e he hkey
    exact absurd (hkeys ▸ List.mem_map_of_mem he) hkey

/-! ## The settings for a lost connection -/

namespace ReconnectSettings

theorem settings_known (r : ReconnectSettings) (keys : List String) : (r.known keys).settings = r.only keys := by
  simp only [known, Given.settings, getD_found, only]

theorem tells_settings (r : ReconnectSettings) : Tells fields (fun key t => (key, t) ∈ r.members) r.known where
  other {keys key} h := by
    simp only [fields, Field.of, List.map_cons, List.map_nil, List.mem_cons, List.not_mem_nil, or_false, not_or] at h
    simp [known, found_snoc, h]
  known_iff {keys f} hf := by
    simp only [fields, List.mem_cons, List.not_mem_nil, or_false] at hf
    rcases hf with rfl | rfl <;> exact isSome_found
  takes {keys f t} hf h := by
    simp only [fields, List.mem_cons, List.not_mem_nil, or_false] at hf
    rcases hf with rfl | rfl
    · obtain rfl : t = wholeText r.intervalSecs.toNat := by simpa [members, Field.of] using h
      exact (takes_of (takes_number _) _).of_eq (by simp [known, found_snoc, Field.of])
    · obtain rfl : t = chars (.bool r.logEvents) := by simpa [members, Field.of] using h
      exact (takes_of (takes_bool _) _).of_eq (by simp [known, found_snoc, Field.of])

theorem ofJson_settings (cs : List Char) : Setting.ofJson (α := Option ReconnectSettings) cs =
    (match skipBlank cs with
    | 'n' :: 'u' :: 'l' :: 'l' :: cs => some (none, cs)
    | cs => (readRecord fields {} cs).map fun (r : Given × List Char) => (some r.1.settings, r.2)) := rfl

theorem takes_null : Takes (Setting.ofJson (α := Option ReconnectSettings)) (chars .null) none := by
  intro pad hpad rest _
  rw [ofJson_settings, List.append_assoc, skipBlank_append hpad]
  rfl

/-- Settings in an object are read as those that are given. -/
theorem takes_object (h : r.GivenBy inner) (ht : IsObject inner t) :
    Takes (Setting.ofJson (α := Option ReconnectSettings)) t (some (r.only (inner.map Entry.key))) := by
  intro pad hpad rest hrest
  have hread := readRecord_object r.tells_settings h ht [] blank_nil rest hrest
  obtain ⟨body, -, rfl⟩ := ht
  rw [ofJson_settings, List.append_assoc, skipBlank_append hpad, List.cons_append, skipBlank_cons (by decide)]
  rw [List.nil_append, List.cons_append] at hread
  change (readRecord fields (r.known []) _).map (fun r => (some r.1.settings, r.2)) = _
  rw [hread, Option.map_some, settings_known]

theorem givenBy_members (r : ReconnectSettings) : r.GivenBy (r.members.map .ofMember) :=
  names_ofMember (by simp [members]) fun _ hm => hm

theorem only_members (r : ReconnectSettings) : r.only ((r.members.map Entry.ofMember).map Entry.key) = r := by
  simp [only, members, Entry.ofMember]

end ReconnectSettings

/-! ## The whole configuration -/

namespace Config

theorem config_known (c : Config) (inner keys : List String) : (c.known inner keys).config = c.only keys inner := by
  simp only [known, Given.config, getD_found, only]

theorem spells_of_gives (h : c.Gives inner "remote_addr" t) : Spells c.remoteAddr t := by
  have h : Spells c.remoteAddr t ∨ t = quote c.remoteAddr := by simpa [gives_iff, members] using h
  rcases h with h | rfl
  · exact h
  · exact spells_quote _

theorem settings_of_gives (h : c.Gives inner "auto_reconnect" t) :
    (∃ r, c.autoReconnect = some r ∧ IsObject inner t ∧ r.GivenBy inner) ∨
      c.autoReconnect = none ∧ t = chars .null := by
  rcases (gives_iff _ _ _ _).mp h with ⟨-, hname⟩ | ⟨r, hr, ht, hgiven, -⟩ | ⟨hmem, hkey⟩
  · exact absurd hname (by decide)
  · exact .inl ⟨r, hr, ht, hgiven⟩
  · have hnone := hkey rfl
    exact .inr ⟨hnone, by simpa [members, hnone] using hmem⟩

theorem tells_parts (c : Config) (inner : List Entry) :
    Tells fields (c.Gives inner) (c.known (inner.map Entry.key)) where
  other {keys key} h := by
    simp only [fields, Field.of, List.map_cons, List.map_nil, List.mem_cons, List.not_mem_nil, or_false, not_or] at h
    simp [known, found_snoc, h]
  known_iff {keys f} hf := by
    simp only [fields, List.mem_cons, List.not_mem_nil, or_false] at hf
    rcases hf with rfl | rfl | rfl | rfl | rfl | rfl | rfl <;> exact isSome_found
  takes {keys f t} hf h := by
    have hset {α : Type} [Setting α] {name : String} {get : Given → Option α} {set : Given → α → Given} {a : α}
        (htakes : Takes (Setting.ofJson (α := α)) t a)
        (heq : set (c.known (inner.map Entry.key) keys) a = c.known (inner.map Entry.key) (keys ++ [name])) :
        Takes ((Field.of name get set).ofJson (c.known (inner.map Entry.key) keys)) t
          (c.known (inner.map Entry.key) (keys ++ [(Field.of name get set).name])) :=
      (takes_of htakes _).of_eq heq
    simp only [fields, List.mem_cons, List.not_mem_nil, or_false] at hf
    rcases hf with rfl | rfl | rfl | rfl | rfl | rfl | rfl
    · exact hset (takes_text (spells_of_gives h)) (by simp [known, found_snoc])
    · obtain rfl : t = wholeText c.idleTimeSecs.toNat := by simpa [gives_iff, members, Field.of] using h
      exact hset (takes_number _) (by simp [known, found_snoc])
    · obtain rfl : t = wholeText c.connectTimeoutMs.toNat := by simpa [gives_iff, members, Field.of] using h
      exact hset (takes_number _) (by simp [known, found_snoc])
    · obtain rfl : t = wholeText c.writeHighWaterBytes.toNat := by simpa [gives_iff, members, Field.of] using h
      exact hset (takes_number _) (by simp [known, found_snoc])
    · obtain rfl : t = wholeText c.writeTimeoutMs.toNat := by simpa [gives_iff, members, Field.of] using h
      exact hset (takes_number _) (by simp [known, found_snoc])
    · obtain rfl : t = chars (.bool c.heartbeatRequiresAck) := by simpa [gives_iff, members, Field.of] using h
      exact hset (takes_bool _) (by simp [known, found_snoc])
    · rcases settings_of_gives h with ⟨r, hr, ht, hgiven⟩ | ⟨hnone, rfl⟩
      · exact hset (ReconnectSettings.takes_object hgiven ht) (by simp [known, found_snoc, hr])
      · exact hset ReconnectSettings.takes_null (by simp [known, found_snoc, hnone])

/-- Whatever part of a configuration a text gives is read, and the rest is as by default. -/
theorem ofJson_givenBy (h : c.GivenBy entries inner) {file : Padded} (ht : IsObject entries file.text) :
    ofJson (String.ofList file.chars) = some (c.only (entries.map Entry.key) (inner.map Entry.key)) := by
  have hread : readRecord fields {} file.chars =
      some (c.known (inner.map Entry.key) (entries.map Entry.key), file.after) := by
    have htakes := takes_chars (readRecord_object (c.tells_parts inner) h ht) delimits_nil
    rw [List.append_nil, List.append_nil] at htakes
    exact htakes
  simp only [ofJson, String.toList_ofList, hread, skipBlank_of_blank file.blank_after, config_known, if_true]

theorem givenBy_members (c : Config) : c.GivenBy (c.members.map .ofMember) c.innerEntries := by
  refine names_ofMember (by simp [members]) fun m hm => ?_
  cases hr : c.autoReconnect with
  | none => exact .member hm fun _ => hr
  | some r =>
    by_cases hkey : m.1 = "auto_reconnect"
    · obtain rfl : m = ("auto_reconnect", ordered r.members) := by
        obtain ⟨key, t⟩ := m
        obtain rfl : key = "auto_reconnect" := hkey
        simpa [members, hr] using hm
      rw [innerEntries, hr]
      exact .settings hr (isObject_ordered r.members) r.givenBy_members
    · exact .member hm fun h => absurd h hkey

theorem only_members (c : Config) :
    c.only ((c.members.map Entry.ofMember).map Entry.key) (c.innerEntries.map Entry.key) = c := by
  obtain ⟨_, _, _, _, _, _, _ | r⟩ := c
  · simp [only, members, Entry.ofMember]
  · have hr := r.only_members
    simp [only, members, Entry.ofMember, innerEntries] at hr ⊢
    exact hr

theorem load_of_extension {name text : String} (hname : (extension name).toLower = "json") :
    load name (some (Utf8.octets text)) = (ofJson text).elim (.error .badJson) .ok := by
  have htext : Utf8.text (Utf8.octets text) = .ok text := Utf8.text_eq_ok_iff.mpr rfl
  simp only [load, htext, hname]

/-- A file in JSON may give any part of a configuration, and any part of the settings for a lost connection inside it:
each key at most once, in any order, however it is written, and among whatever else. What is loaded has the parts that
are given, and the defaults for the rest; no settings for a lost connection are no settings, and not their defaults. The
text of a whole configuration is loaded as that configuration. -/
theorem load_json (c : Config) {name : String} (hname : (extension name).toLower = "json") :
    (∀ (entries inner : List Entry) (file : Padded), c.GivenBy entries inner → IsObject entries file.text →
      load name (some (Utf8.octets (String.ofList file.chars))) =
        .ok (c.only (entries.map Entry.key) (inner.map Entry.key))) ∧
    load name (some (Utf8.octets c.json)) = .ok c := by
  have hpart (entries inner : List Entry) (file : Padded) (h : c.GivenBy entries inner)
      (ht : IsObject entries file.text) : load name (some (Utf8.octets (String.ofList file.chars))) =
        .ok (c.only (entries.map Entry.key) (inner.map Entry.key)) := by
    rw [load_of_extension hname, ofJson_givenBy h ht]
    rfl
  refine ⟨hpart, ?_⟩
  have hfull := hpart _ _ (.bare (ordered c.members)) c.givenBy_members (isObject_ordered c.members)
  rw [c.only_members, Padded.bare, Padded.chars, List.nil_append, List.append_nil] at hfull
  exact hfull

/-- An escaped address, one of the settings for a lost connection, and a key that is no part of a configuration. -/
theorem load_partial_file :
    let c : Config := { remoteAddr := "é:1", idleTimeSecs := 18446744073709551615, autoReconnect := some ⟨7, false⟩ }
    let text := "\n\x7b\"note\":[1e9],\"auto_reconnect\":\x7b\"log_events\":false\x7d,\"remote_addr\":\"\\u00e9:1\"\x7d "
    (extension "client.JSON").toLower = "json" ∧
    load "client.JSON" (some (Utf8.octets text)) = .ok { remoteAddr := "é:1", autoReconnect := some ⟨20, false⟩ } ∧
    load "client.JSON" (some (Utf8.octets c.json)) = .ok c := by
  have hname : (extension "client.JSON").toLower = "json" := by decide +kernel
  intro c text
  let inner : List Member := [("log_events", chars (.bool false))]
  let members : List Member := [("note", ['[', '1', 'e', '9', ']']), ("auto_reconnect", ordered inner),
    ("remote_addr", ['"', '\\', 'u', '0', '0', 'e', '9', ':', '1', '"'])]
  let file : Padded := ⟨['\n'], ordered members, [' '], by simp [Blank, isBlank], by simp [Blank, isBlank]⟩
  have htext : text = String.ofList file.chars := by
    unfold text file members inner
    cbv
  have hnote : IsValue ['[', '1', 'e', '9', ']'] := by
    have hwhole : IsWhole ['1'] := .inr ⟨⟨by simp, by simp⟩, by simp⟩
    have hexponent : IsExponent ['e', '9'] := .inr ⟨'e', [], ['9'], .inl rfl, .inl rfl, ⟨by simp, by simp⟩, rfl⟩
    have hnumber : IsNumber ['1', 'e', '9'] := ⟨[], ['1'], [], ['e', '9'], .inl rfl, hwhole, .inl rfl, hexponent, rfl⟩
    have hitems : Encloses '[' ']' Padded.chars [.bare ['1', 'e', '9']] ['[', '1', 'e', '9', ']'] := ⟨[], blank_nil, rfl⟩
    exact .list hitems (by simpa using .number hnumber)
  have haddress : Spells c.remoteAddr ['"', '\\', 'u', '0', '0', 'e', '9', ':', '1', '"'] := by
    have hfirst : SpellsChar 'é' ['\\', 'u', '0', '0', 'e', '9'] := .number (by decide)
    have hcolon : SpellsChar ':' [':'] := .plain (by decide) (by decide) (by decide)
    have hlast : SpellsChar '1' ['1'] := .plain (by decide) (by decide) (by decide)
    have hlist : "é:1".toList = ['é', ':', '1'] := by decide
    have hchars := SpellsChars.cons hfirst (.cons hcolon (.cons hlast .nil))
    rw [← hlist] at hchars
    exact ⟨_, hchars, rfl⟩
  have hinner : (⟨7, false⟩ : ReconnectSettings).GivenBy (inner.map .ofMember) := by
    refine ⟨by decide, ?_, ?_⟩
    · simp [inner, Entry.ofMember, Padded.bare, ReconnectSettings.members]
    · simp [inner, Entry.ofMember, Padded.bare, ReconnectSettings.members]
  have hgiven : c.GivenBy (members.map .ofMember) (inner.map .ofMember) := by
    refine ⟨by decide, ?_, ?_⟩
    · have hsettings : c.Gives (inner.map .ofMember) "auto_reconnect" (ordered inner) :=
        .settings rfl (isObject_ordered inner) hinner
      simpa [members, Entry.ofMember, Padded.bare, Config.members] using ⟨hsettings, .address haddress⟩
    · simpa [members, Entry.ofMember, Padded.bare, Config.members] using hnote
  have hload := (load_json c hname).1 _ _ file hgiven (isObject_ordered members)
  rw [htext, hload]
  exact ⟨hname, by decide, (load_json c hname).2⟩

end Config

end RemoteCall
