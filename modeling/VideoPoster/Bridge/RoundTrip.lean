import Mathlib.Logic.Relation
import VideoPoster.Bridge.Ingress

/-!
# Which envelopes arrive
-/

namespace VideoPoster.Bridge
open Python Tables Encoding List Char Nat Base64 Prod

def textBytes (chars : List Char) : ℕ := (chars.map utf8Size).sum

theorem textBytes_append (a b : List Char) : textBytes (a ++ b) = textBytes a + textBytes b := by
  simp [textBytes]

theorem textBytes_cons (c : Char) (rest : List Char) : textBytes (c :: rest) = c.utf8Size + textBytes rest := by
  simp [textBytes]

theorem size_ofList (chars : List Char) : (String.ofList chars).toUTF8.size = textBytes chars := by
  rw [String.toUTF8_eq_toByteArray, String.size_toByteArray]
  induction chars with
  | nil => rfl
  | cons c rest ih =>
    have split : String.ofList (c :: rest) = String.singleton c ++ String.ofList rest := by
      rw [← singleton_append, String.ofList_append, String.singleton_eq_ofList]
    rw [split, String.utf8ByteSize_append, String.utf8ByteSize_singleton, ih, textBytes_cons]

variable {chars : List Char}

theorem textBytes_ascii (ascii : ∀ c ∈ chars, c.toNat < 0x80) : textBytes chars = chars.length := by
  induction chars with
  | nil => rfl
  | cons c rest ih =>
    have one : c.utf8Size = 1 := by
      rw [utf8Size_eq_one_iff, UInt32.le_iff_toNat_le]
      exact le_of_lt_succ (ascii c (.head _))
    rw [textBytes_cons, one, ih fun c member => ascii c (.tail _ member), length_cons, add_comm]

def envelopeSize (config : HermesBridgeConfig) (rawUpdate : List UInt8) (nonce : String)
    (timestamp : ℤ) : ℕ :=
  4 * ((rawUpdate.length + 2) / 3) + textBytes (JsonText.quote config.instanceId) +
    textBytes (JsonText.quote nonce) + (toDigits 10 timestamp.toNat).length + 67

theorem flatMap_escape_plain (plain : ∀ c ∈ chars, Base64.Plain c) : chars.flatMap JsonText.escape = chars := by
  induction chars with
  | nil => rfl
  | cons c rest ih =>
    have own : JsonText.escape c = [c] := by
      obtain ⟨printable, -, quote, backslash⟩ := plain c (.head _)
      have small : ∀ d : Char, d.toNat < 0x20 → c ≠ d := by
        rintro d lt rfl
        omega
      unfold JsonText.escape
      rw [if_neg quote, if_neg backslash, if_neg (small _ (by decide)), if_neg (small _ (by decide)),
        if_neg (small _ (by decide)), if_neg (small _ (by decide)), if_neg (small _ (by decide)),
        if_neg (by omega)]
    rw [flatMap_cons, own, ih fun c member => plain c (.tail _ member), singleton_append]

theorem textBytes_encode (rawUpdate : List UInt8) : textBytes (JsonText.quote (.ofList (encode rawUpdate))) =
      4 * ((rawUpdate.length + 2) / 3) + 2 := by
  have plain := plain_encode rawUpdate
  have quotes : utf8Size '"' = 1 := by decide
  rw [JsonText.quote, String.toList_ofList, flatMap_escape_plain plain, textBytes_cons, textBytes_append,
    textBytes_ascii fun c member => (plain c member).2.1, length_encode]
  change _ + (_ + (utf8Size '"' + 0)) = _
  rw [quotes]
  omega

theorem textBytes_digits (n : ℕ) : textBytes (toDigits 10 n) = (toDigits 10 n).length := by
  refine textBytes_ascii fun c member => ?_
  have digit := isDigit_of_mem_toDigits (by decide) (by decide) member
  simp only [isDigit, Bool.and_eq_true, decide_eq_true_eq, UInt32.le_iff_toNat_le] at digit
  exact lt_of_le_of_lt digit.2 (by decide)

theorem size_envelope (config : HermesBridgeConfig) (rawUpdate : List UInt8) (nonce : String) (timestamp : ℤ) :
    (JsonText.dumps (envelopeMembers config rawUpdate nonce timestamp.toNat)).toUTF8.size =
      envelopeSize config rawUpdate nonce timestamp := by
  have instanceKey : textBytes (JsonText.quote "instance") = 10 := by decide
  have nonceKey : textBytes (JsonText.quote "nonce") = 7 := by decide
  have rawKey : textBytes (JsonText.quote "raw_update_b64") = 16 := by decide
  have timeKey : textBytes (JsonText.quote "timestamp") = 11 := by decide
  have versionKey : textBytes (JsonText.quote "version") = 9 := by decide
  have one : textBytes (toDigits 10 1) = 1 := by decide
  have colon : utf8Size ':' = 1 := by decide
  have comma : utf8Size ',' = 1 := by decide
  have opening : utf8Size '{' = 1 := by decide
  have closing : textBytes ['}'] = 1 := by decide
  unfold JsonText.dumps envelopeMembers envelopeSize
  rw [size_ofList]
  simp only [JsonText.dumpsMembers, JsonText.Scalar.text, textBytes_cons, textBytes_append,
    textBytes_encode, textBytes_digits, instanceKey, nonceKey, rawKey, timeKey, versionKey, one, colon,
    comma, opening, closing]
  omega

section Reading
variable {config : HermesBridgeConfig} {rawUpdate : List UInt8} {nonce : String} {timestamp : ℤ}
  {body : ByteArray}

structure Built (config : HermesBridgeConfig) (rawUpdate : List UInt8) (nonce : String)
    (timestamp : ℤ) (body : ByteArray) : Prop where
  raw : rawUpdate ≠ [] ∧ rawUpdate.length ≤ maxBody
  bounded : boundedAscii nonce
  positive : 0 < timestamp
  text : body = (JsonText.dumps (envelopeMembers config rawUpdate nonce timestamp.toNat)).toUTF8

theorem canonicalEnvelope_eq_ok (ok : canonicalEnvelope config rawUpdate nonce timestamp = .ok body) :
    Built config rawUpdate nonce timestamp body := by
  simp only [canonicalEnvelope, bind_eq_ok, require_eq_ok, pure_eq_ok] at ok
  obtain ⟨_, raw, _, bounded, _, positive, rfl⟩ := ok
  exact ⟨raw, bounded, positive, rfl⟩

variable (built : Built config rawUpdate nonce timestamp body)
include built

theorem Built.loads : loadJson body =
      some ((envelopeMembers config rawUpdate nonce timestamp.toNat).map JsonText.entryValue) := by
  have distinct : ((envelopeMembers config rawUpdate nonce timestamp.toNat).map fst).Nodup := by
    change envelopeKeys.Nodup
    decide
  unfold loadJson
  rw [built.text, JsonText.fromUTF8_toUTF8, Option.bind_some, envelopeMembers, JsonText.loads_dumps _ _ distinct]

theorem Built.read {now : ℚ} (recent :
    |now - timestamp| ≤ maxSkewSeconds) : (loadJson body).bind (readEnvelope config now) = some (nonce, rawUpdate) := by
  have time : ((timestamp.toNat : ℤ)) = timestamp := Int.toNat_of_nonneg built.positive.le
  have keys : sameKeys (((envelopeMembers config rawUpdate nonce timestamp.toNat).map
      JsonText.entryValue).map fst) = true := by
    change sameKeys envelopeKeys = true
    decide
  rw [built.loads, Option.bind_some, readEnvelope, if_pos keys]
  simp only [envelopeMembers, map_cons, map_nil, JsonText.entryValue, lookup_cons,
    JsonText.Scalar.value, String.reduceBEq]
  rw [if_pos ⟨rfl, trivial, by rwa [time], built.bounded⟩, String.toList_ofList, decode_encode]
  exact if_pos built.raw

theorem Built.size : body.size = envelopeSize config rawUpdate nonce timestamp := by
  rw [built.text, size_envelope]

end Reading

def matchingHeaders (hmac : String → ByteArray → String) (config : HermesBridgeConfig)
    (body : ByteArray) : Headers :=
  ⟨some "1", some config.instanceId, some ("v1=" ++ expectedSignature hmac config body)⟩

abbrev Presented (sha256 : ByteArray → String) (hmac : String → ByteArray → String)
    (config : HermesBridgeConfig) : Replays → Replays → Prop :=
  Relation.ReflTransGen fun replays replays' => ∃ now failure body headers,
    replays' = (verify sha256 hmac config replays now failure body headers).1

def names (body : ByteArray) (nonce : String) : Prop :=
  ∃ entries, loadJson body = some entries ∧ entries.lookup "nonce" = some (.str nonce)

structure RoundTrip (sha256 : ByteArray → String) (hmac : String → ByteArray → String)
    (config : HermesBridgeConfig) (replays : Replays) (now : ℚ) (body : ByteArray)
    (rawUpdate : List UInt8) (nonce : String) (timestamp : ℤ) : Prop where
  accepted : (verify sha256 hmac config replays now false body
    (matchingHeaders hmac config body)).2 = .ok (some rawUpdate)
  again : ∀ later (now' : ℚ), Presented sha256 hmac config
      (verify sha256 hmac config replays now false body (matchingHeaders hmac config body)).1 later →
    |now' - timestamp| ≤ maxSkewSeconds →
    (verify sha256 hmac config later now' false body (matchingHeaders hmac config body)).2 = .ok (some rawUpdate)
  others : ∀ later (now' : ℚ) failure other headers raw, Presented sha256 hmac config
      (verify sha256 hmac config replays now false body (matchingHeaders hmac config body)).1 later →
    other ≠ body → names other nonce →
    (verify sha256 hmac config later now' failure other headers).2 ≠ .ok (some raw)

section Presenting
variable {sha256 : ByteArray → String} {hmac : String → ByteArray → String}
  {config : HermesBridgeConfig} {replays later : Replays} {body : ByteArray} {nonce : String}

theorem verify_replays (now : ℚ) (failure : Bool) (body : ByteArray)
    (headers : Headers) : (verify sha256 hmac config replays now failure body headers).1 = replays ∨ ∃ nonce, (verify
    sha256 hmac config replays now failure body headers).1 = (rememberOrMatch sha256 replays failure nonce body).1 := by
  unfold verify
  split_ifs
  · exact .inl rfl
  split
  · exact .inl rfl
  · exact .inl rfl
  · split
    · exact .inl rfl
    · rename_i nonce raw read
      right
      refine ⟨nonce, ?_⟩
      split <;> rename_i remembered <;> rw [remembered]

variable {row : Replay}

theorem remembered_rememberOrMatch (found : replays.find? nonce = some row) (failure : Bool) (other : String)
    (body : ByteArray) : (rememberOrMatch sha256 replays failure other body).1.find? nonce = some row := by
  unfold rememberOrMatch
  split_ifs
  · exact found
  split
  · rename_i absent
    refine (Table.find?_put_of_ne _ ?_).trans found
    rintro rfl
    rw [absent] at found
    cases found
  · exact found

theorem remembered_presented (found : replays.find? nonce = some row)
    (presented : Presented sha256 hmac config replays later) : later.find? nonce = some row := by
  induction presented with
  | refl => exact found
  | tail _ last ih =>
    obtain ⟨now, failure, body, headers, rfl⟩ := last
    rcases verify_replays now failure body headers with same | ⟨other, same⟩
    · rw [same]
      exact ih
    · rw [same]
      exact remembered_rememberOrMatch ih failure other body

theorem signed_matching (body : ByteArray) (hexadecimal : ∀ key message, ∀ c ∈ (hmac key message).toList,
    c.toNat < 0x80) : signed hmac config body (matchingHeaders hmac config body) = .ok true := by
  have tail : String.ofList (("v1=" ++ expectedSignature hmac config body).toList.drop 3) =
      expectedSignature hmac config body := by
    rw [String.toList_append]
    exact String.ofList_toList
  have begins : startsWith ("v1=" ++ expectedSignature hmac config body) "v1=" = true := by
    rw [startsWith, String.toList_append, isPrefixOf_iff_prefix]
    exact prefix_append _ _
  have ascii : ((expectedSignature hmac config body).toList.all fun c => decide (c.toNat < 0x80)) = true := by
    rw [all_eq_true]
    exact fun c member => decide_eq_true (hexadecimal _ _ c member)
  simp only [signed, matchingHeaders, begins, and_self, if_true, tail, compareDigest]
  simp [require, ascii]

variable {now : ℚ}

theorem verify_matching {rawUpdate : List UInt8} (some : body.size ≠ 0) (fits : body.size ≤ maxBody)
    (signs : signed hmac config body (matchingHeaders hmac config body) = .ok true) (read : (loadJson body).bind
    (readEnvelope config now) = .some (nonce, rawUpdate)) (own : (rememberOrMatch sha256 replays false nonce body).2 =
    true) : verify sha256 hmac config replays now false body (matchingHeaders hmac config body)
    = ((rememberOrMatch sha256 replays false nonce body).1, .ok (.some rawUpdate)) := by
  unfold verify
  rw [if_neg (by omega), signs]
  simp only [read]
  cases remembered : rememberOrMatch sha256 replays false nonce body with
  | mk replays matched =>
    rw [remembered] at own
    obtain rfl : matched = true := own
    rfl

variable {raw : List UInt8}

theorem readEnvelope_nonce {entries : List (String × JsonText.Value)} (read : readEnvelope config now entries = some (nonce, raw)) :
    entries.lookup "nonce" = some (.str nonce) := by
  unfold readEnvelope at read
  split_ifs at read
  split at read
  · rename_i named _
    split_ifs at read
    split at read
    · split_ifs at read
      cases read
      exact named
    · cases read
  · cases read

theorem verify_accepts {failure : Bool}
    {headers : Headers} (accepted : (verify sha256 hmac config replays now failure body headers).2 = .ok (some raw))
    (named : names body nonce) (found : replays.find? nonce = some row) : row.digest = sha256 body := by
  obtain ⟨entries, loaded, own⟩ := named
  unfold verify at accepted
  split_ifs at accepted
  · cases accepted
  split at accepted
  · cases accepted
  · cases accepted
  · split at accepted
    · cases accepted
    · rename_i other raw' read
      rw [loaded, Option.bind_some] at read
      have same := (readEnvelope_nonce read).symm.trans own
      cases same
      split at accepted
      · rename_i remembered
        unfold rememberOrMatch at remembered
        split_ifs at remembered
        · cases remembered
        · rw [found] at remembered
          exact of_decide_eq_true (mk.inj remembered).2
      · cases accepted

end Presenting

theorem round_trip_iff {sha256 : ByteArray → String} {hmac : String → ByteArray → String} {config : HermesBridgeConfig}
    {replays : Replays} {now : ℚ} {rawUpdate : List UInt8} {nonce : String} {timestamp : ℤ} {body : ByteArray}
    (hexadecimal : ∀ key message, ∀ c ∈ (hmac key message).toList, c.toNat < 0x80) (collisionFree : ∀ other,
    sha256 other = sha256 body → other = body) (ok : canonicalEnvelope config rawUpdate nonce timestamp = .ok body)
    (unused : replays.find? nonce = none) (recent : |now - timestamp| ≤ maxSkewSeconds) : RoundTrip sha256 hmac
    config replays now body rawUpdate nonce timestamp ↔ envelopeSize config rawUpdate nonce timestamp ≤ maxBody := by
  have built := canonicalEnvelope_eq_ok ok
  rw [← built.size]
  constructor
  · intro trip
    by_contra large
    have refused := trip.accepted
    rw [verify, if_pos (.inr (Nat.lt_of_not_le large))] at refused
    cases refused
  · intro fits
    have some : body.size ≠ 0 := by
      rw [built.size, envelopeSize]
      omega
    have signs := @signed_matching hmac config body hexadecimal
    have new : rememberOrMatch sha256 replays false nonce body =
        (replays.put ⟨nonce, sha256 body⟩, true) := by simp [rememberOrMatch, unused]
    have first := verify_matching some fits signs (built.read recent) (congrArg snd new)
    rw [new] at first
    have found : (replays.put ⟨nonce, sha256 body⟩).find? nonce = .some ⟨nonce, sha256 body⟩ :=
      Table.find?_put_self _ _
    refine ⟨by rw [first], ?_, ?_⟩
    · intro later now' presented recent'
      rw [first] at presented
      have known := remembered_presented found presented
      have own : (rememberOrMatch sha256 later false nonce body).2 = true := by
        simp [rememberOrMatch, known]
      rw [verify_matching some fits signs (built.read recent') own]
    · intro later now' failure other headers raw presented different named accepted
      rw [first] at presented
      have known := remembered_presented found presented
      exact different (collisionFree other (verify_accepts accepted named known).symm)

def sampleConfig : HermesBridgeConfig := ⟨"studio", "bridge key", by decide, by decide⟩

def bytesText (body : ByteArray) : String :=
  .ofList (body.data.toList.map fun byte => .ofNat byte.toNat)

theorem bytesText_injective : Function.Injective bytesText := by
  have bytes : Function.Injective fun byte : UInt8 => ofNat byte.toNat := by
    intro a b same
    have toNat : ∀ byte : UInt8, (ofNat byte.toNat).toNat = byte.toNat := by
      intro byte
      have valid : byte.toNat.isValidChar := .inl (by have := byte.toNat_lt; omega)
      rw [ofNat, dif_pos valid]
      rfl
    rw [← UInt8.toNat_inj, ← toNat a, ← toNat b]
    exact congrArg Char.toNat same
  intro a b same
  have lists := congrArg String.toList same
  simp only [bytesText, String.toList_ofList] at lists
  exact ByteArray.ext (Array.toList_inj.mp (map_injective_iff.mpr bytes lists))

theorem sampleConfig_accepts (rawUpdate : List UInt8) (some : rawUpdate ≠ []) (bounded : rawUpdate.length ≤ maxBody) :
    ∃ body, canonicalEnvelope sampleConfig rawUpdate "nonce-01" 1000 = .ok body := by
  have nonce : boundedAscii "nonce-01" := by decide
  simp [canonicalEnvelope, require, some, bounded, nonce]

theorem short_update_arrives : ∃ body, canonicalEnvelope sampleConfig [0x7b, 0x7d] "nonce-01" 1000 = .ok body ∧
    RoundTrip bytesText (fun _ _ => "5f") sampleConfig .empty 1000 body [0x7b, 0x7d] "nonce-01" 1000 := by
  obtain ⟨body, ok⟩ := sampleConfig_accepts [0x7b, 0x7d] (by decide) (by decide)
  have hexadecimal : ∀ c ∈ "5f".toList, c.toNat < 0x80 := by simp
  refine ⟨body, ok, (round_trip_iff (fun _ _ => hexadecimal)
    (fun _ same => bytesText_injective same) ok rfl ?_).mpr (by decide)⟩
  simp only [maxSkewSeconds, Int.cast_ofNat, sub_self, abs_zero]
  decide

theorem largest_update_refused : ∃ body,
    canonicalEnvelope sampleConfig (replicate 65536 0) "nonce-01" 1000 = .ok body ∧
    (verify bytesText (fun _ _ => "5f") sampleConfig .empty 1000 false body
      (matchingHeaders (fun _ _ => "5f") sampleConfig body)).2 = .ok none := by
  obtain ⟨body, ok⟩ := sampleConfig_accepts (replicate 65536 0) (cons_ne_nil _ _)
    (by rw [length_replicate]; decide)
  refine ⟨body, ok, ?_⟩
  have size := (canonicalEnvelope_eq_ok ok).size
  rw [envelopeSize, length_replicate] at size
  have large : maxBody < body.size := by
    unfold maxBody
    omega
  rw [verify, if_pos (.inr large)]

/-! ## The updates of a run -/

structure Presentation where
  now : ℚ
  failure : Bool
  body : ByteArray
  headers : Headers

structure Update where
  body : ByteArray
  raw : List UInt8

section Updates
variable (sha256 : ByteArray → String) (hmac : String → ByteArray → String) (config : HermesBridgeConfig)

/-- The replay memory and what was accepted so far. -/
def present (s : Replays × List Update) (p : Presentation) : Replays × List Update :=
  match verify sha256 hmac config s.1 p.now p.failure p.body p.headers with
  | (replays, .ok (some raw)) => (replays, ⟨p.body, raw⟩ :: s.2)
  | (replays, _) => (replays, s.2)

/-- The body is signed for this instance, names the nonce and carries the update. -/
def Update.Bears (update : Update) (nonce : String) : Prop :=
  (∃ headers, signed hmac config update.body headers = .ok true) ∧
    ∃ now, (loadJson update.body).bind (readEnvelope config now) = some (nonce, update.raw)

structure Remembers (s : Replays × List Update) : Prop where
  rows : ∀ row ∈ s.1, ∃ update ∈ s.2, update.Bears hmac config row.nonce ∧ row.digest = sha256 update.body
  updates : ∀ update ∈ s.2, ∃ nonce, update.Bears hmac config nonce ∧ ⟨nonce, sha256 update.body⟩ ∈ s.1

variable {sha256 hmac config} {replays replays' : Replays} {now : ℚ} {failure : Bool} {body : ByteArray} {headers : Headers}
  {answer : Result (Option (List UInt8))}

theorem Update.Bears.read {update : Update} {nonce : String} (bears : update.Bears hmac config nonce) : ∃ entries encoded,
    loadJson update.body = some entries ∧ entries.lookup "nonce" = some (.str nonce) ∧
      entries.lookup "raw_update_b64" = some (.str encoded) ∧ Base64.decode encoded.toList = some update.raw := by
  obtain ⟨-, now, read⟩ := bears
  obtain ⟨entries, loaded, read⟩ := Option.bind_eq_some_iff.mp read
  unfold readEnvelope at read
  split_ifs at read
  split at read
  · rename_i named encoded
    split_ifs at read
    split at read
    · rename_i decoded
      split_ifs at read
      cases read
      exact ⟨entries, _, loaded, named, encoded, decoded⟩
    · cases read
  · cases read

theorem Update.Bears.same {update other : Update} {nonce nonce' : String} (bears : update.Bears hmac config nonce)
    (bears' : other.Bears hmac config nonce') (body : update.body = other.body) : nonce = nonce' ∧ update = other := by
  obtain ⟨entries, encoded, loaded, named, text, decoded⟩ := bears.read
  obtain ⟨entries', encoded', loaded', named', text', decoded'⟩ := bears'.read
  rw [body, loaded'] at loaded
  cases loaded
  cases named.symm.trans named'
  cases text.symm.trans text'
  cases update
  cases other
  cases decoded.symm.trans decoded'
  cases body
  exact ⟨rfl, rfl⟩

/-- Either nothing is remembered and nothing accepted, or the body is, under its nonce. -/
theorem verify_cases (is : verify sha256 hmac config replays now failure body headers = (replays', answer)) :
    (replays' = replays ∧ ∀ raw, answer ≠ .ok (some raw)) ∨ ∃ nonce raw, answer = .ok (some raw) ∧
      (⟨body, raw⟩ : Update).Bears hmac config nonce ∧
      ((replays.find? nonce = none ∧ replays' = replays.put ⟨nonce, sha256 body⟩) ∨
        ⟨nonce, sha256 body⟩ ∈ replays ∧ replays' = replays) := by
  unfold verify at is
  split_ifs at is
  · cases is
    exact .inl ⟨rfl, by simp⟩
  split at is
  · cases is
    exact .inl ⟨rfl, by simp⟩
  · cases is
    exact .inl ⟨rfl, by simp⟩
  rename_i signs
  split at is
  · cases is
    exact .inl ⟨rfl, by simp⟩
  rename_i nonce raw read
  have bears : (⟨body, raw⟩ : Update).Bears hmac config nonce := ⟨⟨headers, signs⟩, now, read⟩
  unfold rememberOrMatch at is
  cases failure with
  | true =>
    cases is
    exact .inl ⟨rfl, by simp⟩
  | false =>
    simp only [Bool.false_eq_true, if_false] at is
    cases found : replays.find? nonce with
    | none =>
      simp only [found] at is
      cases is
      exact .inr ⟨nonce, raw, rfl, bears, .inl ⟨found, rfl⟩⟩
    | some row =>
      simp only [found] at is
      obtain ⟨member, named⟩ := Table.find?_eq_some.mp found
      by_cases same : row.digest = sha256 body
      · simp only [same, decide_true] at is
        cases is
        refine .inr ⟨nonce, raw, rfl, bears, .inr ⟨?_, rfl⟩⟩
        rwa [← named, ← same]
      · simp only [same, decide_false] at is
        cases is
        exact .inl ⟨rfl, by simp⟩

theorem Remembers.step {s : Replays × List Update} (remembers : Remembers sha256 hmac config s) (p : Presentation) :
    Remembers sha256 hmac config (present sha256 hmac config s p) := by
  unfold present
  split <;> rename_i is
  · rcases verify_cases is with ⟨-, rejected⟩ | ⟨nonce, raw, accepted, bears, ⟨absent, rfl⟩ | ⟨found, rfl⟩⟩
    · exact absurd rfl (rejected _)
    · cases accepted
      constructor
      · intro row member
        rcases Table.mem_put.1 member with rfl | ⟨before, -⟩
        · exact ⟨_, mem_cons_self, bears, rfl⟩
        · obtain ⟨update, own, rest⟩ := remembers.rows row before
          exact ⟨update, mem_cons_of_mem _ own, rest⟩
      · intro update member
        rcases mem_cons.mp member with rfl | before
        · exact ⟨nonce, bears, Table.mem_put.2 (.inl rfl)⟩
        · obtain ⟨other, bears', row⟩ := remembers.updates update before
          refine ⟨other, bears', Table.mem_put.2 (.inr ⟨row, ?_⟩)⟩
          exact Table.find?_eq_none.mp absent _ row
    · cases accepted
      constructor
      · intro row member
        obtain ⟨update, own, rest⟩ := remembers.rows row member
        exact ⟨update, mem_cons_of_mem _ own, rest⟩
      · intro update member
        rcases mem_cons.mp member with rfl | before
        · exact ⟨nonce, bears, found⟩
        · exact remembers.updates update before
  · rename_i rejected
    rcases verify_cases is with ⟨rfl, -⟩ | ⟨_, raw, rfl, -⟩
    · exact ⟨remembers.rows, remembers.updates⟩
    · exact absurd is (by simpa using rejected raw)

end Updates
end VideoPoster.Bridge
