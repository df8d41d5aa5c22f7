import MercuryLayer.Client.LocktimeGuard
import MercuryLayer.Library.Bech32

namespace MercuryLayer.Client.ScAddress

open Client.Transaction Client.TransferSender Client.LocktimeGuard Crates Error Library.Validation Musig.Session
open Library.XOnlyCurve MercuryLayer.Transaction WalletData
open Library.Bech32 (Digit Variant)

/-- The `bech32` crate as the library calls it. A text starts with its human-readable part and is
read back as it was written. -/
structure Bech32 where
  encode : String → List Digit → Variant → Option String
  decode : String → Option (String × List Digit × Variant)
  toBase32 : Bytes → List Digit
  fromBase32 : List Digit → Option Bytes
  fromBase32_toBase32 : ∀ bytes, fromBase32 (toBase32 bytes) = some bytes
  decode_encode : ∀ hrp data variant, Library.Bech32.isHrp hrp.toList → ∃ text rest,
    encode hrp data variant = some text ∧ decode text = some (hrp, data, variant) ∧
      text.toList = hrp.toList ++ '1' :: rest

/-- The compressed form of a public key. -/
structure KeyBytes (E : Type) extends Codec E Bytes where
  length_encode : ∀ key, (encode key).length = 33

/-- The code of the library, for texts in lower case. -/
def lowerCase : Bech32 where
  encode hrp data variant := (Library.Bech32.encode hrp.toList data variant).map String.ofList
  decode text := (Library.Bech32.decode text.toList).map (fun parts => (String.ofList parts.1, parts.2))
  toBase32 := Library.Bech32.toBase32
  fromBase32 := Library.Bech32.fromBase32
  fromBase32_toBase32 := Library.Bech32.fromBase32_toBase32
  decode_encode hrp data variant hhrp := by
    obtain ⟨rest, hencode, hdecode⟩ := Library.Bech32.decode_encode hhrp data variant
    refine ⟨String.ofList (hrp.toList ++ '1' :: rest), rest, ?_, ?_, String.toList_ofList⟩
    · rw [hencode]
      rfl
    · rw [String.toList_ofList, hdecode, Option.map_some, String.ofList_toList]

variable {E K F : Type} (bech32 : Bech32) (keys : KeyBytes E)

def mainnetHrp : String := "ml"

def testnetHrp : String := "tml"

def hrpOf (network : Network) : String := if network = .bitcoin then mainnetHrp else testnetHrp

def encodeScAddress (userPubkey authPubkey : E) (network : Network) : Res String :=
  let data := 0x00 :: (keys.encode userPubkey ++ keys.encode authPubkey)
  orErr .bech32Error (bech32.encode (hrpOf network) (bech32.toBase32 data) .bech32m)

/-- A slice past the end of the data is a panic. -/
def slice (data : Bytes) (start stop : ℕ) : Res Bytes := do
  throwIf (data.length < stop) .panic
  return (data.drop start).take (stop - start)

def decodeTransferAddress (scAddress : String) : Res (UInt8 × E × E) := do
  let (hrp, data, variant) ← orErr .bech32Error (bech32.decode scAddress)
  throwIf (hrp ≠ mainnetHrp ∧ hrp ≠ testnetHrp) (.mercury .invalidStatechainAddressError)
  throwIf (variant ≠ .bech32m) (.mercury .invalidBitcoinAddressError)
  let decodedData ← orErr .bech32Error (bech32.fromBase32 data)
  let version ← unwrap decodedData[0]?
  let userPubkey ← slice decodedData 1 34
  let userPubkey ← orErr .secp256k1UpstreamError (keys.decode userPubkey)
  let authPubkey ← slice decodedData 34 67
  let authPubkey ← orErr .secp256k1UpstreamError (keys.decode authPubkey)
  return (version, userPubkey, authPubkey)

/-- The setup with the library's own decoder of transfer addresses. -/
def withDecoder (setup : Setup E K F) : Setup E K F :=
  { setup with envelope := { setup.envelope with decodeTransferAddress := decodeTransferAddress bech32 keys } }

section RoundTrip

variable {bech32 keys}

theorem isHrp_hrpOf (network : Network) : Library.Bech32.isHrp (hrpOf network).toList := by
  cases network <;> decide

theorem hrpOf_known (network : Network) : ¬(hrpOf network ≠ mainnetHrp ∧ hrpOf network ≠ testnetHrp) := by
  cases network <;> decide

theorem slice_user (version : UInt8) (u a : E) :
    slice (version :: (keys.encode u ++ keys.encode a)) 1 34 = .ok (keys.encode u) := by
  have hlength : ¬(version :: (keys.encode u ++ keys.encode a)).length < 34 := by
    rw [List.length_cons, List.length_append, keys.length_encode, keys.length_encode]
    omega
  have htake : (keys.encode u ++ keys.encode a).take 33 = keys.encode u :=
    List.take_left' (keys.length_encode u)
  simp only [slice, throwIf, if_neg hlength, ok_bind, List.drop_succ_cons, List.drop_zero, Nat.reduceSub, htake]
  rfl

theorem slice_auth (version : UInt8) (u a : E) :
    slice (version :: (keys.encode u ++ keys.encode a)) 34 67 = .ok (keys.encode a) := by
  have hlength : ¬(version :: (keys.encode u ++ keys.encode a)).length < 67 := by
    rw [List.length_cons, List.length_append, keys.length_encode, keys.length_encode]
    omega
  have hdrop : (keys.encode u ++ keys.encode a).drop 33 = keys.encode a :=
    List.drop_left' (keys.length_encode u)
  have htake : (keys.encode a).take 33 = keys.encode a := List.take_of_length_le (keys.length_encode a).le
  simp only [slice, throwIf, if_neg hlength, ok_bind, List.drop_succ_cons, hdrop, Nat.reduceSub, htake]
  rfl

/-- The address of two keys exists, starts with the prefix of its network and the separator, and
holds the keys. -/
theorem exists_encodeScAddress (bech32 : Bech32) (keys : KeyBytes E) (u a : E) (n : Network) :
    ∃ text rest, encodeScAddress bech32 keys u a n = .ok text ∧
      decodeTransferAddress bech32 keys text = .ok (0, u, a) ∧
      text.toList = (hrpOf n).toList ++ '1' :: rest := by
  obtain ⟨text, rest, hencode, hdecode, htext⟩ := bech32.decode_encode (hrpOf n)
    (bech32.toBase32 (0x00 :: (keys.encode u ++ keys.encode a))) .bech32m (isHrp_hrpOf n)
  refine ⟨text, rest, ?_, ?_, htext⟩
  · rw [encodeScAddress, hencode]
    rfl
  · simp only [decodeTransferAddress, hdecode, orErr_some, ok_bind, throwIf, if_neg (hrpOf_known n),
      ne_eq, not_true_eq_false, if_false, bech32.fromBase32_toBase32, List.getElem?_cons_zero, unwrap_some,
      slice_user, slice_auth, Codec.decode_encode]
    rfl

theorem prefixes_of_hrpOf {text : String} {rest : List Char} {n : Network}
    (htext : text.toList = (hrpOf n).toList ++ '1' :: rest) :
    (['m', 'l'].isPrefixOf text.toList = true ↔ n = .bitcoin) ∧
      (['t', 'm', 'l'].isPrefixOf text.toList = true ↔ n ≠ .bitcoin) := by
  rw [htext]
  cases n <;> simp [hrpOf, mainnetHrp, testnetHrp]

/-- A text with the prefix of one network is judged by the side of the network alone. -/
theorem validateAddress_isOk {setup : Setup E K F} {text network : String} {rest : List Char} {n m : Network}
    {decoded : UInt8 × E × E} (htext : text.toList = (hrpOf n).toList ++ '1' :: rest)
    (hdecode : setup.envelope.decodeTransferAddress text = .ok decoded) (hm : getNetwork network = .ok m) :
    (∃ valid, validateAddress setup text network = .ok valid) ↔ (n = .bitcoin ↔ m = .bitcoin) := by
  obtain ⟨hmain, htest⟩ := prefixes_of_hrpOf htext
  have htransfer : isTransferAddress text = true := by
    rw [isTransferAddress, Bool.or_eq_true, hmain, htest]
    exact em _
  simp only [validateAddress, hm, ok_bind, htransfer, if_true, hmain, htest, hdecode, handled_ok]
  by_cases hn : n = .bitcoin <;> by_cases hb : m = .bitcoin <;> simp [throwIf, hn, hb]

/-- An address holds the keys it was made of, and is valid for the networks on the same side as its
own. -/
theorem address_round_trip (bech32 : Bech32) (keys : KeyBytes E) (setup : Setup E K F) (u a : E) (n : Network) :
    ∃ text, encodeScAddress bech32 keys u a n = .ok text ∧
      decodeTransferAddress bech32 keys text = .ok (0, u, a) ∧
      ∀ network m, getNetwork network = .ok m →
        ((∃ valid, validateAddress (withDecoder bech32 keys setup) text network = .ok valid) ↔
          ((n = .bitcoin ∧ m = .bitcoin) ∨ (n ≠ .bitcoin ∧ m ≠ .bitcoin))) := by
  obtain ⟨text, rest, hencode, hdecode, htext⟩ := exists_encodeScAddress bech32 keys u a n
  refine ⟨text, hencode, hdecode, fun network m hm => ?_⟩
  rw [validateAddress_isOk htext hdecode hm]
  tauto

section Seven

def sevenKeyBytes : KeyBytes (Point (ZMod 7)) where
  encode P := byteOf P :: List.replicate 32 0
  decode bytes := bytes.head?.bind pointOfByte
  decode_encode P := by simp
  length_encode P := by simp

/-- A mainnet address is valid on mainnet and refused on regtest. -/
theorem address_round_trip_seven :
    ∃ text, encodeScAddress lowerCase sevenKeyBytes (seven.publicKey 1) (seven.publicKey 2) .bitcoin = .ok text ∧
      (∃ valid, validateAddress (withDecoder lowerCase sevenKeyBytes sevenSetup) text "bitcoin" = .ok valid) ∧
      ¬∃ valid, validateAddress (withDecoder lowerCase sevenKeyBytes sevenSetup) text "regtest" = .ok valid := by
  obtain ⟨text, hencode, -, hvalid⟩ := address_round_trip lowerCase sevenKeyBytes sevenSetup
    (seven.publicKey 1) (seven.publicKey 2) .bitcoin
  refine ⟨text, hencode, (hvalid "bitcoin" .bitcoin rfl).mpr (.inl ⟨rfl, rfl⟩), fun h => ?_⟩
  obtain ⟨-, hregtest⟩ | ⟨hmain, -⟩ := (hvalid "regtest" .regtest rfl).mp h
  · cases hregtest
  · exact hmain rfl

end Seven

/-- The two addresses of the library's own test hold the same data under different prefixes. -/
example :
    (lowerCase.decode
      ("tml1qqpgha2armzyvwwglqty24ztegut27neyvlkpu3894adsgascq96tjq" ++
        "r78gy6adlzsre3fqyrxdx8n68henrd6fzcgfwcltu3sesuh05nvxslxjnxw")).bind
      (fun parts => lowerCase.encode mainnetHrp parts.2.1 parts.2.2) =
    some ("ml1qqpgha2armzyvwwglqty24ztegut27neyvlkpu3894adsgascq96tjq" ++
      "r78gy6adlzsre3fqyrxdx8n68henrd6fzcgfwcltu3sesuh05nvxs2dd888") := by
  decide +kernel

end RoundTrip

section Strict

/-- The text in lower case. -/
def lower (text : String) : String := String.ofList (Library.Bech32.toLower text.toList)

/-- The crate reads nothing but what it writes, in either case. -/
structure StrictBech32 extends Bech32 where
  toBase32_fromBase32 : ∀ {digits : List Digit} {bytes : Bytes},
    fromBase32 digits = some bytes → toBase32 bytes = digits
  encode_decode : ∀ {text hrp : String} {data : List Digit} {variant : Variant},
    decode text = some (hrp, data, variant) → encode hrp data variant = some (lower text)

/-- A key is read from its compressed form only, where that many bytes are given. -/
structure StrictKeyBytes (E : Type) extends KeyBytes E where
  encode_decode : ∀ {bytes : Bytes} {key : E}, bytes.length = 33 → decode bytes = some key → encode key = bytes

/-- The code of the library, for texts in either case. -/
def anyCase : StrictBech32 where
  encode hrp data variant := (Library.Bech32.encode hrp.toList data variant).map String.ofList
  decode text := (Library.Bech32.decodeAnyCase text.toList).map (fun parts => (String.ofList parts.1, parts.2))
  toBase32 := Library.Bech32.toBase32
  fromBase32 := Library.Bech32.fromBase32
  fromBase32_toBase32 := Library.Bech32.fromBase32_toBase32
  toBase32_fromBase32 := Library.Bech32.toBase32_fromBase32
  decode_encode hrp data variant hhrp := by
    obtain ⟨rest, hencode, hdecode⟩ := Library.Bech32.decodeAnyCase_encode hhrp data variant
    refine ⟨String.ofList (hrp.toList ++ '1' :: rest), rest, ?_, ?_, String.toList_ofList⟩
    · rw [hencode]
      rfl
    · rw [String.toList_ofList, hdecode, Option.map_some, String.ofList_toList]
  encode_decode := by
    intro text hrp data variant h
    obtain ⟨⟨chars, parts⟩, hdecode, hparts⟩ := Option.map_eq_some_iff.mp h
    cases hparts
    rw [String.toList_ofList, Library.Bech32.encode_decodeAnyCase hdecode]
    rfl

variable (bech32 : StrictBech32) (keys : StrictKeyBytes E)

/-- The data of a text in the form of a transfer address. -/
def payloadOf (text : String) : Option Bytes := do
  let (hrp, data, variant) ← bech32.decode text
  guard (¬(hrp ≠ mainnetHrp ∧ hrp ≠ testnetHrp))
  guard (variant = .bech32m)
  bech32.fromBase32 data

def userPart (payload : Bytes) : Bytes := (payload.drop 1).take 33

def authPart (payload : Bytes) : Bytes := (payload.drop 34).take 33

/-- The data holds a version, here zero, and two keys, or it is long enough for what cannot be read
of it to be looked at. -/
def Fits (payload : Bytes) : Prop :=
  34 ≤ payload.length ∧ (keys.decode (userPart payload) = none ∨
    67 ≤ payload.length ∧ (keys.decode (authPart payload) = none ∨
      payload.length = 67 ∧ payload[0]? = some 0))

variable {bech32 keys} {text : String} {payload : Bytes}

theorem payloadOf_eq_some : payloadOf bech32 text = some payload ↔ ∃ hrp data,
    bech32.decode text = some (hrp, data, .bech32m) ∧ ¬(hrp ≠ mainnetHrp ∧ hrp ≠ testnetHrp) ∧
      bech32.fromBase32 data = some payload := by
  simp only [payloadOf, Option.bind_eq_bind, Option.bind_eq_some_iff, Option.guard_eq_some', exists_const]
  constructor
  · rintro ⟨⟨hrp, data, variant⟩, hdecode, hhrp, rfl, hpayload⟩
    exact ⟨hrp, data, hdecode, hhrp, hpayload⟩
  · rintro ⟨hrp, data, hdecode, hhrp, hpayload⟩
    exact ⟨(hrp, data, .bech32m), hdecode, hhrp, rfl, hpayload⟩

theorem slice_eq_ok {data part : Bytes} {start stop : ℕ} :
    slice data start stop = .ok part ↔ stop ≤ data.length ∧ part = (data.drop start).take (stop - start) := by
  simp only [slice, bind_eq_ok, throwIf_eq_ok, pure_eq_ok, not_lt, exists_const, @eq_comm _ part]

theorem slice_eq_panic {data : Bytes} {start stop : ℕ} :
    slice data start stop = .error .panic ↔ data.length < stop := by
  simp only [slice, bind_eq_error, throwIf_eq_error, and_true]
  refine ⟨fun h => ?_, .inl⟩
  obtain h | ⟨_, -, h⟩ := h
  · exact h
  · cases h

theorem decodeTransferAddress_of_none (h : payloadOf bech32 text = none) :
    decodeTransferAddress bech32.toBech32 keys.toKeyBytes text ≠ .error .panic ∧
      ∀ decoded, decodeTransferAddress bech32.toBech32 keys.toKeyBytes text ≠ .ok decoded := by
  have hnone : ∀ payload, payloadOf bech32 text ≠ some payload := by
    intro payload hpayload
    cases h.symm.trans hpayload
  simp only [ne_eq, payloadOf_eq_some, not_exists] at hnone
  constructor
  · intro hpanic
    simp only [decodeTransferAddress, bind_eq_error, orErr_ne_panic, throwIf_eq_error, false_or] at hpanic
    obtain ⟨⟨hrp, data, variant⟩, hdecode, ⟨-, hpanic⟩ | ⟨_, hhrp, ⟨-, hpanic⟩ | ⟨_, hvariant, bytes, hbytes, -⟩⟩⟩ :=
      hpanic
    · cases hpanic
    · cases hpanic
    · cases not_not.mp (throwIf_eq_ok.mp hvariant)
      exact hnone bytes hrp data ⟨orErr_eq_ok.mp hdecode, throwIf_eq_ok.mp hhrp, orErr_eq_ok.mp hbytes⟩
  · intro decoded hok
    simp only [decodeTransferAddress, bind_eq_ok] at hok
    obtain ⟨⟨hrp, data, variant⟩, hdecode, _, hhrp, _, hvariant, bytes, hbytes, -⟩ := hok
    cases not_not.mp (throwIf_eq_ok.mp hvariant)
    exact hnone bytes hrp data ⟨orErr_eq_ok.mp hdecode, throwIf_eq_ok.mp hhrp, orErr_eq_ok.mp hbytes⟩

variable (keys) in
def readPayload (payload : Bytes) : Res (UInt8 × E × E) := do
  let version ← unwrap payload[0]?
  let userPubkey ← slice payload 1 34
  let userPubkey ← orErr .secp256k1UpstreamError (keys.decode userPubkey)
  let authPubkey ← slice payload 34 67
  let authPubkey ← orErr .secp256k1UpstreamError (keys.decode authPubkey)
  return (version, userPubkey, authPubkey)

theorem decodeTransferAddress_of_some (h : payloadOf bech32 text = some payload) :
    decodeTransferAddress bech32.toBech32 keys.toKeyBytes text = readPayload keys payload := by
  obtain ⟨hrp, data, hdecode, hhrp, hpayload⟩ := payloadOf_eq_some.mp h
  simp only [decodeTransferAddress, hdecode, orErr_some, ok_bind, throwIf, if_neg hhrp, ne_eq, not_true_eq_false,
    if_false, hpayload]
  rfl

theorem readPayload_eq_ok {v : UInt8} {u a : E} : readPayload keys payload = .ok (v, u, a) ↔
    67 ≤ payload.length ∧ payload[0]? = some v ∧ keys.decode (userPart payload) = some u ∧
      keys.decode (authPart payload) = some a := by
  simp only [readPayload, bind_eq_ok, unwrap_eq_ok, slice_eq_ok, orErr_eq_ok, pure_eq_ok]
  constructor
  · rintro ⟨version, hversion, _, ⟨-, rfl⟩, user, huser, _, ⟨hlength, rfl⟩, auth, hauth, hdecoded⟩
    cases hdecoded
    exact ⟨hlength, hversion, huser, hauth⟩
  · rintro ⟨hlength, hversion, huser, hauth⟩
    exact ⟨v, hversion, _, ⟨by omega, rfl⟩, u, huser, _, ⟨hlength, rfl⟩, a, hauth, rfl⟩

theorem readPayload_eq_panic : readPayload keys payload = .error .panic ↔
    payload.length < 34 ∨ payload.length < 67 ∧ keys.decode (userPart payload) ≠ none := by
  simp only [readPayload, bind_eq_error, unwrap_eq_panic, unwrap_eq_ok, slice_eq_ok, slice_eq_panic, orErr_ne_panic,
    orErr_eq_ok, false_or]
  constructor
  · rintro (hempty | ⟨_, -, hshort | ⟨_, ⟨-, rfl⟩, user, huser, hshort | ⟨_, -, _, -, hpure⟩⟩⟩)
    · have hnil := List.getElem?_eq_none_iff.mp hempty
      omega
    · exact .inl hshort
    · exact .inr ⟨hshort, by rw [userPart, huser]; exact Option.some_ne_none user⟩
    · cases hpure
  · rintro (hshort | ⟨hshort, huser⟩)
    · cases hversion : payload[0]? with
      | none => exact .inl rfl
      | some version => exact .inr ⟨version, rfl, .inl hshort⟩
    · by_cases hlength : payload.length < 34
      · cases hversion : payload[0]? with
        | none => exact .inl rfl
        | some version => exact .inr ⟨version, rfl, .inl hlength⟩
      · obtain ⟨user, huser⟩ := Option.ne_none_iff_exists'.mp huser
        have hversion : payload[0]? = some payload[0] := List.getElem?_eq_getElem (by omega)
        exact .inr ⟨_, hversion, .inr ⟨_, ⟨by omega, rfl⟩, user, huser, .inl hshort⟩⟩

theorem hrpOf_cases {hrp : String} (h : ¬(hrp ≠ mainnetHrp ∧ hrp ≠ testnetHrp)) : ∃ n, hrp = hrpOf n := by
  by_cases hmain : hrp = mainnetHrp
  · exact ⟨.bitcoin, hmain⟩
  · exact ⟨.testnet, not_not.mp (fun htest => h ⟨hmain, htest⟩)⟩

theorem payload_parts (h : payload.length = 67) (hversion : payload[0]? = some 0) :
    payload = 0 :: (userPart payload ++ authPart payload) := by
  obtain ⟨first, rest, rfl⟩ := List.exists_cons_of_length_eq_add_one (n := 66) h
  cases Option.some.inj hversion
  have hrest : rest.length = 66 := by simpa using h
  have hlast : (rest.drop 33).take 33 = rest.drop 33 := List.take_of_length_le (by simp; omega)
  simp only [userPart, authPart, List.drop_succ_cons, List.drop_zero, hlast, List.take_append_drop]

/-- Only the data of two keys and version zero is that of an address. -/
theorem encoded_iff {v : UInt8} {u a : E} (hpayload : payloadOf bech32 text = some payload)
    (hread : readPayload keys payload = .ok (v, u, a)) :
    (v = 0 ∧ ∃ n, encodeScAddress bech32.toBech32 keys.toKeyBytes u a n = .ok (lower text)) ↔
      payload.length = 67 ∧ payload[0]? = some 0 := by
  obtain ⟨hlength, hversion, huser, hauth⟩ := readPayload_eq_ok.mp hread
  obtain ⟨hrp, data, hdecode, hhrp, hdata⟩ := payloadOf_eq_some.mp hpayload
  obtain ⟨n, rfl⟩ := hrpOf_cases hhrp
  have hwritten := bech32.encode_decode hdecode
  have huserBytes : keys.encode u = userPart payload :=
    keys.encode_decode (by rw [userPart, List.length_take, List.length_drop]; omega) huser
  have hauthBytes : keys.encode a = authPart payload :=
    keys.encode_decode (by rw [authPart, List.length_take, List.length_drop]; omega) hauth
  constructor
  · rintro ⟨-, m, haddress⟩
    obtain ⟨text', rest, hencode, hdecode', -⟩ := bech32.decode_encode (hrpOf n) data .bech32m (isHrp_hrpOf n)
    obtain ⟨text'', rest', hencode', hdecode'', -⟩ := bech32.decode_encode (hrpOf m)
      (bech32.toBase32 (0x00 :: (keys.encode u ++ keys.encode a))) .bech32m (isHrp_hrpOf m)
    cases hencode.symm.trans hwritten
    cases hencode'.symm.trans (orErr_eq_ok.mp haddress)
    have hsame := congrArg (fun parts => parts.2.1) (Option.some.inj (hdecode'.symm.trans hdecode''))
    have hbytes := (congrArg bech32.fromBase32 hsame).trans (bech32.fromBase32_toBase32 _)
    cases Option.some.inj (hdata.symm.trans hbytes)
    refine ⟨?_, rfl⟩
    rw [List.length_cons, List.length_append, keys.length_encode, keys.length_encode]
  · rintro ⟨hexact, hzero⟩
    refine ⟨Option.some.inj (hversion.symm.trans hzero), n, orErr_eq_ok.mpr ?_⟩
    rw [huserBytes, hauthBytes]
    rw [← payload_parts hexact hzero, bech32.toBase32_fromBase32 hdata, hwritten]

variable (bech32 keys) in
/-- The decoder accepts addresses only, and does not panic. -/
def DecodesStrictly (text : String) : Prop :=
  (∀ v u a, decodeTransferAddress bech32.toBech32 keys.toKeyBytes text = .ok (v, u, a) →
    v = 0 ∧ ∃ n, encodeScAddress bech32.toBech32 keys.toKeyBytes u a n = .ok (lower text)) ∧
  decodeTransferAddress bech32.toBech32 keys.toKeyBytes text ≠ .error .panic

theorem decodesStrictly_iff :
    DecodesStrictly bech32 keys text ↔ ∀ payload, payloadOf bech32 text = some payload → Fits keys payload := by
  cases hpayload : payloadOf bech32 text with
  | none =>
    have hrefused : DecodesStrictly bech32 keys text := by
      obtain ⟨hpanic, hok⟩ := decodeTransferAddress_of_none hpayload
      exact ⟨fun v u a h => absurd h (hok _), hpanic⟩
    exact iff_of_true hrefused (fun _ h => nomatch h)
  | some payload =>
    simp only [DecodesStrictly, decodeTransferAddress_of_some hpayload, Option.some.injEq, forall_eq', ne_eq,
      readPayload_eq_panic]
    constructor
    · rintro ⟨hok, hpanic⟩
      obtain ⟨hlong, hlonger⟩ := not_or.mp hpanic
      refine ⟨by omega, ?_⟩
      by_cases huser : keys.decode (userPart payload) = none
      · exact .inl huser
      have hlength : 67 ≤ payload.length := by
        by_contra hshort
        exact hlonger ⟨by omega, huser⟩
      refine .inr ⟨hlength, ?_⟩
      by_cases hauth : keys.decode (authPart payload) = none
      · exact .inl hauth
      obtain ⟨u, hu⟩ := Option.ne_none_iff_exists'.mp huser
      obtain ⟨a, ha⟩ := Option.ne_none_iff_exists'.mp hauth
      have hread := readPayload_eq_ok.mpr ⟨hlength, List.getElem?_eq_getElem (by omega), hu, ha⟩
      exact .inr ((encoded_iff hpayload hread).mp (hok _ u a hread))
    · rintro ⟨hlong, hfits⟩
      constructor
      · intro v u a hread
        refine (encoded_iff hpayload hread).mpr ?_
        obtain ⟨-, -, huser, hauth⟩ := readPayload_eq_ok.mp hread
        obtain hnone | ⟨-, hnone | hexact⟩ := hfits
        · cases hnone.symm.trans huser
        · cases hnone.symm.trans hauth
        · exact hexact
      · rintro (hshort | ⟨hshort, huser⟩)
        · omega
        · obtain hnone | ⟨hlength, -⟩ := hfits
          · exact huser hnone
          · omega

section Callers

variable {setup : Setup E K F}

theorem mercuryIf_ne_panic {p : Prop} [Decidable p] {e : MercuryError} :
    throwIf p (Failure.mercury e) ≠ .error .panic := by
  unfold throwIf
  split_ifs <;> exact nofun

theorem validateAddress_ne_panic {address network : String}
    (h : setup.envelope.decodeTransferAddress address ≠ .error .panic) :
    validateAddress setup address network ≠ .error .panic := by
  refine bind_ne_panic getNetwork_ne_panic (fun m _ => ?_)
  split_ifs
  · refine bind_ne_panic mercuryIf_ne_panic (fun _ _ => ?_)
    refine bind_ne_panic mercuryIf_ne_panic (fun _ _ => ?_)
    refine bind_ne_panic (fun hpanic => h (handled_eq_panic.mp hpanic)) (fun decoded _ => ?_)
    cases decoded with
    | some _ => exact pure_ne_panic
    | none =>
      intro h
      cases h
  · refine bind_ne_panic mercuryIf_ne_panic (fun _ _ => ?_)
    exact bind_ne_panic mercuryIf_ne_panic (fun _ _ => pure_ne_panic)

variable [Mul F] [NatCast F]

/-- The recipient's text is the only thing that makes the output of a coin with an amount panic. -/
theorem createTxOut_eq_panic {secp : Secp E K} {btc : Bitcoin} {envelope : Sender.Envelope E} {isAddress : String → Bool}
    {ceilU64 : F → UInt64} {coin : Coin} {amount : UInt32} (hamount : coin.amount = some amount) (rate : F)
    (network : Network) :
    createTxOut secp btc envelope isAddress ceilU64 coin rate text network = .error .panic ↔
      if isTransferAddress text then
        envelope.decodeTransferAddress text = .error .panic ∨
          ∃ v u a, envelope.decodeTransferAddress text = .ok (v, u, a) ∧ secp.p2trOutputKey (secp.xOnly u) = none
      else isAddress text = false := by
  simp only [createTxOut, hamount, unwrap_some, ok_bind]
  split_ifs
  · simp only [bind_eq_error, p2trScript, pure_ne_panic, unwrap_eq_panic, and_false, exists_false, or_false,
      Prod.exists]
  · simp only [bind_eq_error, throwIf_eq_error, orErr_ne_panic, pure_ne_panic, and_true, and_false, exists_false,
      or_false]

variable (bech32 keys setup) in
/-- No text that is given for a recipient is misread or ends the client. -/
structure ReadSafely (text : String) : Prop where
  decodes : DecodesStrictly bech32 keys text
  validates : ∀ network,
    validateAddress (withDecoder bech32.toBech32 keys.toKeyBytes setup) text network ≠ .error .panic
  pays : ∀ coin amount rate network, coin.amount = some amount →
    createTxOut setup.secp setup.btc (withDecoder bech32.toBech32 keys.toKeyBytes setup).envelope setup.isAddress
      setup.ceilU64 coin rate text network ≠ .error .panic

variable (bech32 keys setup) in
/-- The data of a transfer address fits and names a key that can be paid, and every other text is a bitcoin
address. -/
structure Recipient (text : String) : Prop where
  fits : ∀ payload, payloadOf bech32 text = some payload → Fits keys payload
  payable : isTransferAddress text = true → ∀ payload u a, payloadOf bech32 text = some payload →
    keys.decode (userPart payload) = some u → keys.decode (authPart payload) = some a →
      setup.secp.p2trOutputKey (setup.secp.xOnly u) ≠ none
  address : isTransferAddress text = false → setup.isAddress text = true

/-- A text is read safely exactly if it is that of a recipient. -/
theorem read_safely_iff (bech32 : StrictBech32) (keys : StrictKeyBytes E) (setup : Setup E K F) (text : String) :
    ReadSafely bech32 keys setup text ↔ Recipient bech32 keys setup text := by
  have hdecoded : ∀ v u a, decodeTransferAddress bech32.toBech32 keys.toKeyBytes text = .ok (v, u, a) ↔
      ∃ payload, payloadOf bech32 text = some payload ∧ readPayload keys payload = .ok (v, u, a) := by
    intro v u a
    cases hpayload : payloadOf bech32 text with
    | none => exact iff_of_false ((decodeTransferAddress_of_none hpayload).2 _) (fun ⟨_, h, _⟩ => nomatch h)
    | some payload => simp only [decodeTransferAddress_of_some hpayload, Option.some.injEq, exists_eq_left']
  constructor
  · intro hsafe
    have hfits := decodesStrictly_iff.mp hsafe.decodes
    have hpays := hsafe.pays fundedCoin 1000 ((0 : ℕ) : F) .bitcoin rfl
    rw [ne_eq, createTxOut_eq_panic rfl] at hpays
    refine ⟨hfits, fun htransfer payload u a hpayload hu ha hnone => ?_, fun hother => ?_⟩
    · rw [if_pos htransfer, not_or] at hpays
      obtain ⟨-, hnone' | ⟨hlength, -⟩⟩ := hfits payload hpayload
      · cases hnone'.symm.trans hu
      · have hread := readPayload_eq_ok.mpr ⟨hlength, List.getElem?_eq_getElem (by omega), hu, ha⟩
        exact hpays.2 ⟨_, u, a, (hdecoded _ u a).mpr ⟨payload, hpayload, hread⟩, hnone⟩
    · rw [if_neg (by rw [hother]; exact Bool.false_ne_true)] at hpays
      exact Bool.eq_true_of_not_eq_false hpays
  · intro hrecipient
    have hdecodes := decodesStrictly_iff.mpr hrecipient.fits
    refine ⟨hdecodes, fun network => validateAddress_ne_panic hdecodes.2, ?_⟩
    intro coin amount rate network hamount hpanic
    rw [createTxOut_eq_panic hamount] at hpanic
    split_ifs at hpanic with htransfer
    · obtain hpanic | ⟨v, u, a, hok, hnone⟩ := hpanic
      · exact hdecodes.2 hpanic
      · obtain ⟨payload, hpayload, hread⟩ := (hdecoded v u a).mp hok
        obtain ⟨-, -, hu, ha⟩ := readPayload_eq_ok.mp hread
        exact hrecipient.payable htransfer payload u a hpayload hu ha hnone
    · rw [hrecipient.address (Bool.eq_false_of_not_eq_true htransfer)] at hpanic
      cases hpanic

section Seven

theorem byteOf_of_pointOfByte {u : UInt8} {P : Point (ZMod 7)} (h : pointOfByte u = some P) : byteOf P = u := by
  have hscalar : ∀ (v : BitVec 8) (k : ZMod 7), scalarOfByte (UInt8.ofBitVec v) = some k →
      byteOf k = UInt8.ofBitVec v := by
    decide +kernel
  obtain ⟨k, hk, hpoint⟩ := Option.bind_eq_some_iff.mp h
  rw [← Params.toPoint_eq_some.mp hpoint]
  exact hscalar u.toBitVec k hk

def sevenStrictKeys : StrictKeyBytes (Point (ZMod 7)) where
  encode P := byteOf P :: List.replicate 32 0
  decode bytes := if bytes.tail = List.replicate 32 0 then bytes.head?.bind pointOfByte else none
  decode_encode P := by simp
  length_encode P := by simp
  encode_decode := by
    intro bytes P hlength h
    split_ifs at h with htail
    obtain ⟨u, hu, hP⟩ := Option.bind_eq_some_iff.mp h
    rw [byteOf_of_pointOfByte hP, ← htail]
    exact List.cons_head?_tail hu

/-- An address without data ends the client, one of version five is accepted, and a word that is no address ends
the client when an output is made for it. -/
theorem address_misread_seven :
    decodeTransferAddress anyCase.toBech32 sevenStrictKeys.toKeyBytes "tml1d04gul" = .error .panic ∧
      decodeTransferAddress anyCase.toBech32 sevenStrictKeys.toKeyBytes
        ("ml1q5pqqqqqqqqqqqqqqqqqqqqqqqqqqqqqqqqqqqqqqqqqqqqqqqqqqqqrq" ++
          "qqqqqqqqqqqqqqqqqqqqqqqqqqqqqqqqqqqqqqqqqqqqqqqqqqq7vmlhr") = .ok (5, seven.publicKey 2, seven.publicKey 3) ∧
      createTxOut sevenSetup.secp wireBtc sevenSetup.envelope (fun _ => false) sevenSetup.ceilU64 fundedCoin (1 : ℕ)
        "somebody" .regtest = .error .panic := by
  decide +kernel

end Seven

end Callers

end Strict

end MercuryLayer.Client.ScAddress
