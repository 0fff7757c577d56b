import Cadence.Proofs.RequestAddress
import Cadence.Proofs.TextBytes
import Cadence.Proofs.TrimmedTexts
import Cadence.Proofs.VerificationRecords
import Cadence.Text.Percent

/-!
# Ids of phone numbers in addresses

Behind a scheme and a host, the address of a request names the version, the id of the phone number and the resource.
The escapes of the id stand for its bytes, so the segment of an id is read back as the id, and no mark in it cuts the
path. Only the ids `.` and `..` are escaped as themselves, which the normal form of an address removes, the second one
together with the version. Two ids have one address in no case.
-/

namespace Cadence

open Text

/-! ### Escapes are read back -/

namespace Provider

def hexDigit (n : Nat) : Char := if n < 10 then Char.ofNat (n + 48) else Char.ofNat (n + 55)

theorem percentByte_eq (b : UInt8) : percentByte b = ['%', hexDigit (b.toNat / 16), hexDigit (b.toNat % 16)] := rfl

theorem hexValue?_hexDigit : ∀ n < 16, hexValue? (hexDigit n) = some n := by decide

theorem isUnreserved_hexDigit : ∀ n < 16, isUnreserved (hexDigit n) = true := by decide

theorem digits_lt (b : UInt8) : b.toNat / 16 < 16 ∧ b.toNat % 16 < 16 := by
  have hbyte := b.toNat_lt
  omega

theorem bytes_percentByte (b : UInt8) (rest : List Char) :
    Percent.bytes (percentByte b ++ rest) = b :: Percent.bytes rest := by
  obtain ⟨hhigh, hlow⟩ := digits_lt b
  -- Two digits are read as one byte, which is the byte that they were written for.
  have hvalue : 16 * (b.toNat / 16) + b.toNat % 16 = b.toNat := Nat.div_add_mod b.toNat 16
  simp only [percentByte_eq, List.cons_append, List.nil_append, Percent.bytes, hexValue?_hexDigit _ hhigh,
    hexValue?_hexDigit _ hlow, hvalue, UInt8.ofNat_toNat]

theorem bytes_percentBytes (bs : List UInt8) (rest : List Char) :
    Percent.bytes (bs.flatMap percentByte ++ rest) = bs ++ Percent.bytes rest := by
  induction bs with
  | nil => rfl
  | cons b bs ih => rw [List.flatMap_cons, List.append_assoc, bytes_percentByte, ih, List.cons_append]

theorem bytes_of_ne_percent {c : Char} (h : c ≠ '%') (rest : List Char) :
    Percent.bytes (c :: rest) = Utf8.encodeChar c ++ Percent.bytes rest := by
  rw [Percent.bytes]
  exact fun _ _ _ hpercent => absurd hpercent h

theorem encodeSegment_cons (c : Char) (rest : List Char) :
    encodeSegment (c :: rest) =
      (if isUnreserved c then [c] else (Utf8.encodeChar c).flatMap percentByte) ++ encodeSegment rest :=
  List.flatMap_cons

theorem bytes_encodeSegment (s : List Char) : Percent.bytes (encodeSegment s) = Utf8.encode s := by
  induction s with
  | nil => rfl
  | cons c rest ih =>
    rw [encodeSegment_cons, Utf8.encode, List.flatMap_cons, ← Utf8.encode, ← ih]
    by_cases h : isUnreserved c = true
    · have hpercent : c ≠ '%' := by
        rintro rfl
        exact absurd h (by decide)
      rw [if_pos h, List.singleton_append, bytes_of_ne_percent hpercent]
    · rw [if_neg h, bytes_percentBytes]

theorem decode_encodeSegment (s : String) : Percent.decode (String.ofList (encodeSegment s.toList)) = s := by
  simp only [Percent.decode, String.toList_ofList, bytes_encodeSegment, Percent.tolerantText, Utf8.decode_encode,
    String.ofList_toList]

theorem encodeSegment_inj {s s' : List Char} (h : encodeSegment s = encodeSegment s') : s = s' := by
  have hbytes := congrArg Percent.bytes h
  rw [bytes_encodeSegment, bytes_encodeSegment] at hbytes
  have hdecoded := congrArg Utf8.decode hbytes
  rw [Utf8.decode_encode, Utf8.decode_encode] at hdecoded
  exact Except.ok.inj hdecoded

theorem mem_encodeSegment {s : List Char} {c : Char} (h : c ∈ encodeSegment s) : isUnreserved c = true ∨ c = '%' := by
  obtain ⟨d, -, hc⟩ := List.mem_flatMap.mp h
  by_cases hd : isUnreserved d = true
  · rw [if_pos hd, List.mem_singleton] at hc
    exact .inl (hc ▸ hd)
  · rw [if_neg hd] at hc
    obtain ⟨b, -, hc⟩ := List.mem_flatMap.mp hc
    obtain ⟨hhigh, hlow⟩ := digits_lt b
    rw [percentByte_eq] at hc
    simp only [List.mem_cons, List.not_mem_nil, or_false] at hc
    rcases hc with rfl | rfl | rfl
    · exact .inr rfl
    · exact .inl (isUnreserved_hexDigit _ hhigh)
    · exact .inl (isUnreserved_hexDigit _ hlow)

/-- Nothing in the segment of an id cuts the path. -/
theorem encodeSegment_uncut {s : List Char} : ∀ c ∈ encodeSegment s, c ≠ '/' ∧ c ≠ '?' ∧ c ≠ '#' := by
  intro c hc
  rcases mem_encodeSegment hc with h | rfl
  · refine ⟨?_, ?_, ?_⟩ <;> rintro rfl <;> exact absurd h (by decide)
  · decide

theorem dot_eq : ['.'] = encodeSegment ".".toList := by decide

theorem dots_eq : ['.', '.'] = encodeSegment "..".toList := by decide

theorem plain_encodeSegment {phone : String} (hdot : phone ≠ ".") (hdots : phone ≠ "..") :
    Plain (encodeSegment phone.toList) where
  notDot h := hdot (String.toList_inj.mp (encodeSegment_inj (h.trans dot_eq)))
  notDots h := hdots (String.toList_inj.mp (encodeSegment_inj (h.trans dots_eq)))
  uncut := encodeSegment_uncut

/-! ### Addresses behind a scheme and a host -/

/-- An address of a scheme and a host, and of nothing else. -/
structure IsOrigin (base : String) : Prop where
  parts : ∃ scheme host, base.toList = scheme ++ ':' :: '/' :: '/' :: host ∧ scheme ≠ [] ∧ host ≠ [] ∧
    (∀ c ∈ scheme, c ≠ ':' ∧ c ≠ '/' ∧ c ≠ '?' ∧ c ≠ '#') ∧ ∀ c ∈ host, c ≠ '/' ∧ c ≠ '?' ∧ c ≠ '#'

/-- The path of segments. -/
def rooted (segments : List (List Char)) : List Char := segments.flatMap ('/' :: ·)

/-- Segments that no mark of an address cuts. -/
def Uncut (segments : List (List Char)) : Prop := ∀ s ∈ segments, ∀ c ∈ s, c ≠ '/' ∧ c ≠ '?' ∧ c ≠ '#'

section Rooted
variable {segments kept : List (List Char)} {base : String}

theorem head?_rooted (segments : List (List Char)) : ∀ c ∈ (rooted segments).head?, c = '/' := by
  cases segments with
  | nil => exact nofun
  | cons s rest => exact fun c hc => (Option.some.inj hc).symm

theorem not_marked_rooted (h : Uncut segments) : ∀ c ∈ rooted segments, c ≠ '?' ∧ c ≠ '#' := by
  intro c hc
  obtain ⟨s, hs, hc⟩ := List.mem_flatMap.mp hc
  rcases List.mem_cons.mp hc with rfl | hc
  · decide
  · exact (h s hs c hc).2

theorem splitChars_append_rooted (h : Uncut segments) (front : List Char) :
    splitChars '/' (front ++ rooted segments) = splitChars '/' front ++ segments := by
  induction segments generalizing front with
  | nil => rw [rooted, List.flatMap_nil, List.append_nil, List.append_nil]
  | cons s rest ih =>
    have hs : splitChars '/' s = [s] := splitChars_of_not_mem fun hmem => (h s List.mem_cons_self _ hmem).1 rfl
    have hrest := ih (fun t ht => h t (List.mem_cons_of_mem s ht)) s
    rw [rooted, List.flatMap_cons, List.cons_append, ← rooted, splitChars_append, hrest, hs, List.singleton_append]

theorem splitChars_rooted (h : Uncut segments) : splitChars '/' (rooted segments) = [] :: segments :=
  splitChars_append_rooted h []

theorem intercalate_rooted (first : List Char) (segments : List (List Char)) :
    ['/'].intercalate (first :: segments) = first ++ rooted segments := by
  induction segments generalizing first with
  | nil => rw [List.intercalate_singleton, rooted, List.flatMap_nil, List.append_nil]
  | cons s rest ih =>
    rw [List.intercalate_cons_cons, ih, rooted, rooted, List.flatMap_cons, List.append_assoc]
    rfl

/-- A path is normalised by removing its dot segments, if it has any. -/
theorem normalPath_rooted (h : Uncut segments) (hkept : removeDots [] ([] :: segments) = [] :: kept) :
    normalPath (rooted segments) = rooted kept := by
  unfold normalPath
  dsimp only
  rw [splitChars_rooted h]
  split
  · rw [hkept, intercalate_rooted, List.nil_append]
  · rename_i hplain
    have hnone : ∀ s ∈ [] :: segments, s ≠ ['.'] ∧ s ≠ ['.', '.'] := by
      simp only [Bool.or_eq_true, List.contains_iff_mem, not_or] at hplain
      exact fun s hs => ⟨fun h => hplain.1 (h ▸ hs), fun h => hplain.2 (h ▸ hs)⟩
    rw [removeDots_of_not_dots [] hnone] at hkept
    rw [(List.cons.inj hkept).2]

theorem splitOrigin_rooted (hbase : IsOrigin base) (segments : List (List Char)) :
    splitOrigin (base.toList ++ rooted segments) = (base.toList, rooted segments) := by
  obtain ⟨scheme, host, hparts, -, -, hscheme, hhost⟩ := hbase.parts
  have hcolon : ((base.toList ++ rooted segments).takeWhile fun c => c ≠ ':' && c ≠ '/' && c ≠ '?' && c ≠ '#') =
      scheme := by
    rw [hparts, List.append_assoc]
    refine takeWhile_front (fun c hc => ?_) (fun c hc => ?_)
    · simpa [and_assoc] using hscheme c hc
    · obtain rfl : ':' = c := Option.some.inj hc
      rfl
  have hdrop : (base.toList ++ rooted segments).drop scheme.length =
      ':' :: '/' :: '/' :: (host ++ rooted segments) := by
    rw [hparts, List.append_assoc, List.drop_left]
    rfl
  have hhostOnly : ∀ c ∈ host, (c ≠ '/' && c ≠ '?' && c ≠ '#') = true := fun c hc => by
    simpa [and_assoc] using hhost c hc
  have hslash : ∀ c ∈ (rooted segments).head?, (c ≠ '/' && c ≠ '?' && c ≠ '#') = false := fun c hc => by
    rw [head?_rooted segments c hc]
    rfl
  unfold splitOrigin
  dsimp only
  rw [hcolon, hdrop]
  change (scheme ++ [':', '/', '/'] ++ List.takeWhile _ (host ++ rooted segments), List.dropWhile _ _) = _
  rw [takeWhile_front hhostOnly hslash, dropWhile_front hhostOnly hslash, hparts, List.append_assoc]
  rfl

/-- Behind a scheme and a host, the segments of a path are normalised and the rest of the address is kept. -/
theorem normalUrl_rooted (hbase : IsOrigin base) (h : Uncut segments)
    (hkept : removeDots [] ([] :: segments) = [] :: kept) :
    normalUrl (base ++ String.ofList (rooted segments)) = base ++ String.ofList (rooted kept) := by
  have hpath : ∀ c ∈ rooted segments, (c ≠ '?' && c ≠ '#') = true := fun c hc => by
    simpa using not_marked_rooted h c hc
  have htake : (rooted segments).takeWhile (fun c => c ≠ '?' && c ≠ '#') = rooted segments :=
    List.takeWhile_eq_self_iff.mpr hpath
  have hdrop : (rooted segments).dropWhile (fun c => c ≠ '?' && c ≠ '#') = [] := List.dropWhile_eq_nil_iff.mpr hpath
  unfold normalUrl
  rw [String.toList_append, String.toList_ofList, splitOrigin_rooted hbase]
  dsimp only
  rw [htake, hdrop, normalPath_rooted h hkept, List.append_nil, String.ofList_append, String.ofList_toList]

/-- An address of an origin and the segments of a path, without a query and without a fragment. -/
structure Reaches (url base : String) (segments : List String) : Prop where
  origin : String.ofList (splitOrigin url.toList).1 = base
  path : split '/' (String.ofList (splitOrigin url.toList).2) = "" :: segments
  bare : ∀ c ∈ (splitOrigin url.toList).2, c ≠ '?' ∧ c ≠ '#'

theorem Reaches.unique {url base : String} {first second : List String} (h : Reaches url base first)
    (h' : Reaches url base second) : first = second :=
  (List.cons.inj (h.path.symm.trans h'.path)).2

theorem reaches_rooted (hbase : IsOrigin base) (h : Uncut kept) :
    Reaches (base ++ String.ofList (rooted kept)) base (kept.map String.ofList) := by
  have hsplit : splitOrigin (base ++ String.ofList (rooted kept)).toList = (base.toList, rooted kept) := by
    rw [String.toList_append, String.toList_ofList, splitOrigin_rooted hbase]
  refine ⟨?_, ?_, ?_⟩
  · rw [hsplit, String.ofList_toList]
  · rw [hsplit, split, String.toList_ofList, splitChars_rooted h]
    rfl
  · rw [hsplit]
    exact not_marked_rooted h

end Rooted

/-! ### The address of an id -/

/-- The segments of the path that an id leads to. -/
def segmentsOf (version phone : String) : List (List Char) :=
  if phone = "." then [version.toList, "messages".toList]
  else if phone = ".." then ["messages".toList]
  else [version.toList, encodeSegment phone.toList, "messages".toList]

section Address
variable {c : Client} {phone : String}

theorem removeDots_of_id {version : String} (hversion : Plain version.toList) (phone : String) :
    removeDots [] [[], version.toList, encodeSegment phone.toList, "messages".toList] =
      [] :: segmentsOf version phone := by
  have hrest : ∀ s ∈ ["messages".toList], s ≠ ['.'] ∧ s ≠ ['.', '.'] := by simp
  have hfirst : removeDots [] [[], version.toList, encodeSegment phone.toList, "messages".toList] =
      removeDots [version.toList, []] [encodeSegment phone.toList, "messages".toList] := by
    rw [removeDots, if_neg (by decide), if_neg (by decide), removeDots, if_neg hversion.notDot,
      if_neg hversion.notDots]
  rw [hfirst, removeDots, segmentsOf]
  -- Only the segment of the id can be a dot segment: the version before it is plain, and so is what follows.
  by_cases hdot : phone = "."
  · subst hdot
    exact removeDots_of_not_dots _ hrest
  · by_cases hdots : phone = ".."
    · subst hdots
      have hbefore : [version.toList, []] ≠ [] ∧ [version.toList, []] ≠ [[]] := by simp
      change removeDots (if _ then _ else _) _ = _
      rw [if_pos hbefore]
      exact removeDots_of_not_dots _ hrest
    · have hphone := plain_encodeSegment hdot hdots
      rw [if_neg hdot, if_neg hdots, if_neg hphone.notDot, if_neg hphone.notDots, removeDots_of_not_dots _ hrest]
      rfl

theorem uncut_segments {version : String} (hversion : Plain version.toList) (phone : String) :
    Uncut [version.toList, encodeSegment phone.toList, "messages".toList] := by
  intro s hs
  simp only [List.mem_cons, List.not_mem_nil, or_false] at hs
  rcases hs with rfl | rfl | rfl
  · exact hversion.uncut
  · exact encodeSegment_uncut
  · exact plain_messages.uncut

theorem uncut_segmentsOf {version : String} (hversion : Plain version.toList) (phone : String) :
    Uncut (segmentsOf version phone) := by
  intro s hs
  refine uncut_segments hversion phone s ?_
  unfold segmentsOf at hs
  split at hs
  · rcases List.mem_cons.mp hs with rfl | hs
    · exact List.mem_cons_self
    · exact List.mem_cons_of_mem _ (List.mem_cons_of_mem _ hs)
  · split at hs
    · exact List.mem_cons_of_mem _ (List.mem_cons_of_mem _ hs)
    · exact hs

theorem messagesUrl_eq (c : Client) (phone : String) : c.messagesUrl phone =
    c.baseUrl ++ String.ofList (rooted [c.apiVersion.toList, encodeSegment phone.toList, "messages".toList]) := by
  refine String.toList_inj.mp ?_
  simp [Client.messagesUrl, rooted]

theorem Client.reaches (hbase : IsOrigin c.baseUrl) (hversion : Plain c.apiVersion.toList) (phone : String) :
    Reaches (normalUrl (c.messagesUrl phone)) c.baseUrl ((segmentsOf c.apiVersion phone).map String.ofList) := by
  rw [messagesUrl_eq, normalUrl_rooted hbase (uncut_segments hversion phone) (removeDots_of_id hversion phone)]
  exact reaches_rooted hbase (uncut_segmentsOf hversion phone)

theorem segmentsOf_inj {version phone other : String} (h : segmentsOf version phone = segmentsOf version other) :
    phone = other := by
  unfold segmentsOf at h
  split_ifs at h with hdot hdot' hdots' hdots hdot' hdots' hdot' hdots'
  · exact hdot.trans hdot'.symm
  · simp at h
  · simp at h
  · simp at h
  · exact hdots.trans hdots'.symm
  · simp at h
  · simp at h
  · simp at h
  · exact String.toList_inj.mp (encodeSegment_inj (List.cons.inj (List.cons.inj h).2).1)

/-- Over a base address of a scheme and a host, and with a plain version, the address of a request has three segments,
one of which stands for the id, exactly if the id is neither `.` nor `..`. These lose the segment of the id, and the
second one the version as well. Two ids never have one address. -/
theorem Client.send_segments (c : Client) (hbase : IsOrigin c.baseUrl) (hversion : Plain c.apiVersion.toList)
    (phone : String) :
    let url := normalUrl (c.messagesUrl phone)
    (∀ token m line, ¬c.Unwritable token phone → ∃ request,
      ((c.send token phone m).runOn line).2.received = request :: line.received ∧ request.url = url) ∧
    (∀ token m line, c.Unwritable token phone → ((c.send token phone m).runOn line).2.received = line.received) ∧
    ((∃ segment, Reaches url c.baseUrl [c.apiVersion, segment, "messages"] ∧ Percent.decode segment = phone) ↔
      phone ≠ "." ∧ phone ≠ "..") ∧
    (phone = "." → Reaches url c.baseUrl [c.apiVersion, "messages"]) ∧
    (phone = ".." → Reaches url c.baseUrl ["messages"]) ∧
    ∀ other, normalUrl (c.messagesUrl other) = url → other = phone := by
  intro url
  have hreaches : Reaches url c.baseUrl ((segmentsOf c.apiVersion phone).map String.ofList) :=
    Client.reaches hbase hversion phone
  have hdot : phone = "." → Reaches url c.baseUrl [c.apiVersion, "messages"] := by
    rintro rfl
    simpa [segmentsOf] using hreaches
  have hdots : phone = ".." → Reaches url c.baseUrl ["messages"] := by
    rintro rfl
    simpa [segmentsOf] using hreaches
  refine ⟨fun token m line hwritable => ?_, fun token m line hunwritable => ?_, ⟨?_, ?_⟩, hdot, hdots, ?_⟩
  · rw [runOn_send, request_of_writable hwritable]
    exact ⟨_, rfl, rfl⟩
  · obtain ⟨f, hrequest, -⟩ := request_of_unwritable hunwritable m
    rw [runOn_send, hrequest]
  · rintro ⟨segment, hsegment, -⟩
    refine ⟨fun h => ?_, fun h => ?_⟩
    · simpa using hsegment.unique (hdot h)
    · simpa using hsegment.unique (hdots h)
  · rintro ⟨hnotDot, hnotDots⟩
    refine ⟨String.ofList (encodeSegment phone.toList), ?_, decode_encodeSegment phone⟩
    simpa [segmentsOf, hnotDot, hnotDots] using hreaches
  · intro other hother
    have hsegments := (hother ▸ Client.reaches hbase hversion other).unique hreaches
    exact segmentsOf_inj ((List.map_inj_right fun _ _ => String.ofList_inj.mp).mp hsegments)

theorem isOrigin_default : IsOrigin "https://graph.facebook.com" where
  parts := ⟨"https".toList, "graph.facebook.com".toList, by decide, by decide, by decide, by simp, by simp⟩

/-- The id is a path with dot segments, a query and a fragment, and stays one segment. -/
theorem Client.send_segments_marked :
    let c : Client := {}
    let phone := "../v1?a=%2F#b"
    let url := normalUrl (c.messagesUrl phone)
    (∃ request, ((c.send "EAAG" phone ⟨"+1555", "welcome", none⟩).runOn ⟨fun _ _ => .ok ⟨200, ""⟩, []⟩).2.received =
        [request] ∧ request.url = url) ∧
      ∃ segment, Reaches url "https://graph.facebook.com" ["v20.0", segment, "messages"] ∧
        Percent.decode segment = phone := by
  intro c phone url
  have hversion : Plain c.apiVersion.toList := ⟨by decide, by decide, by simp [c]⟩
  have hwritable : ¬c.Unwritable "EAAG" phone := not_or.mpr ⟨by decide, by simp⟩
  obtain ⟨hsent, -, hsegments, -⟩ := c.send_segments isOrigin_default hversion phone
  exact ⟨hsent _ _ _ hwritable, hsegments.mpr (by decide)⟩

/-- The token of a client is sent to another resource than the messages of the id. -/
theorem Client.send_dots :
    let line : Line := ⟨fun _ _ => .ok ⟨200, ""⟩, []⟩
    let received := ((({} : Client).send "EAAG" ".." ⟨"+1555", "welcome", none⟩).runOn line).2.received
    received.map (fun request => (request.url, request.authorization)) =
      [("https://graph.facebook.com/messages", "Bearer EAAG")] := by
  decide

end Address

end Provider

end Cadence
