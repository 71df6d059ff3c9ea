import Xi2p.Lib.AssocMap
import Xi2p.Lib.CBC
import Xi2p.Lib.Text

/-!
# The certificates of a reseed

`Reseed::ProcessCerts` and `SU3::VerifySignature` of `client/reseed.cc`, with the reader of certificates
of `core/crypto/impl/cryptopp/util/x509.cc`.

The keys are assigned anew for every certificate. The reader is the same for all of them and keeps what
it has read, so that nothing is lost.

* `CertState.Holds`: what is there when some certificates have been processed.
* `processCerts_spec`: every certificate of a directory counts.
-/

namespace Client

open Text
open CBC (Block)

/-- `xi2p::core::PublicKey`. -/
abbrev PublicKey := Block 512

/-- Functions of Crypto++. -/
structure ReseedEnv where
  /-- The issuer and the modulus in a certificate that is encoded in Base64, unless there is an
  exception. -/
  decode : List UInt8 → Option (List UInt8 × PublicKey)
  /-- `RSASHA5124096RawVerifier`: whether the signature of the content is right. -/
  verify : PublicKey → List UInt8 → List UInt8 → Bool

/-- The signing keys under the IDs of their signers. The order of the entries does not matter here. -/
abbrev SigningKeys := List (List UInt8 × PublicKey)

/-- `m_SigningKeys[name] = value`. -/
def SigningKeys.put (keys : SigningKeys) (name : List UInt8) (value : PublicKey) : SigningKeys :=
  (name, value) :: AssocMap.erase keys name

/-! ## Reading a certificate -/

/-- `X509`. -/
structure X509 where
  signingKeys : SigningKeys := []

/-- `margin["header"]`. -/
def pemHeader : List UInt8 := ascii "-----BEGIN CERTIFICATE-----"

/-- `margin["footer"]`. -/
def pemFooter : List UInt8 := ascii "-----END CERTIFICATE-----"

/-- What stands between header and footer. If the footer is in front, it is all behind the header. -/
def pemContent (cert : List UInt8) : Option (List UInt8) :=
  match cutAt pemHeader cert, cutAt pemFooter cert with
  | some (front, content), some (untilFooter, _) =>
    let pos := front.length + pemHeader.length
    some (content.take ((untilFooter.length + 2 ^ 64 - pos) % 2 ^ 64))
  | _, _ => none

namespace X509

variable (env : ReseedEnv)

/-- `PEMDecode`. -/
def pemDecode (x : X509) (base64 : List UInt8) : Bool × X509 :=
  match env.decode base64 with
  | none => (false, x)
  | some (name, value) =>
    -- an unknown issuer is skipped
    if name.length > 0 then (true, { signingKeys := x.signingKeys.put name value }) else (true, x)

/-- `ProcessCert`. -/
def processCert (x : X509) (cert : List UInt8) : Bool × X509 :=
  match pemContent cert with
  | none => (false, x)
  | some base64 => x.pemDecode env base64

/-- `GetSigningKey`. -/
def getSigningKey (x : X509) (cert : List UInt8) : SigningKeys × X509 :=
  match x.processCert env cert with
  | (true, x) => (x.signingKeys, x)
  | (false, _) => ([], { signingKeys := [] })

end X509

/-! ## Processing the certificates -/

/-- What stands in a directory. -/
inductive DirectoryEntry
  /-- A file with its content, if it can be opened. -/
  | regular (content : Option (List UInt8))
  | other

/-- What the path of the certificates leads to. -/
inductive CertificatePath
  | missing
  | file
  /-- The entries, in the order of iteration. -/
  | directory (entries : List DirectoryEntry)

/-- The variables of `ProcessCerts`. -/
structure CertState where
  keys : SigningKeys
  x509 : X509 := {}
  numCerts : ℕ := 0

variable (env : ReseedEnv)

/-- The loop of `ProcessCerts`. -/
def processEntries : List DirectoryEntry → CertState → Bool × CertState
  | [], s => (true, s)
  | .other :: entries, s => processEntries entries s
  | .regular none :: _, s => (false, s)
  | .regular (some cert) :: entries, s =>
    let (keys, x509) := s.x509.getSigningKey env cert
    if keys.isEmpty then (false, { s with keys, x509 })
    else
      -- the counter stops at 255
      let numCerts := if s.numCerts < 255 then s.numCerts + 1 else s.numCerts
      processEntries entries { keys, x509, numCerts }

/-- `ProcessCerts`: the result, and the keys. -/
def processCerts (path : CertificatePath) (keys : SigningKeys) : Bool × SigningKeys :=
  match path with
  | .missing | .file => (false, keys)
  | .directory entries =>
    match processEntries env entries { keys } with
    | (false, s) => (false, s.keys)
    | (true, s) => (decide (s.numCerts > 0), s.keys)

/-! ## Verifying a stream -/

/-- `SIGNING_KEY_TYPE_RSA_SHA512_4096`. -/
abbrev rsaSHA5124096 : ℕ := 6

/-- The members of `SU3::Data` that `VerifySignature` reads. -/
structure SU3Data where
  signatureType : ℕ
  /-- An array. -/
  signerId : List UInt8
  content : List UInt8
  signature : List UInt8

/-- The text in the array, up to a zero. -/
def SU3Data.signer (d : SU3Data) : List UInt8 := d.signerId.takeWhile (· ≠ 0)

/-- `VerifySignature`. -/
def verifySignature (signingKeys : SigningKeys) (d : SU3Data) : Bool :=
  match AssocMap.find signingKeys d.signer with
  | none => false
  | some key =>
    if d.signatureType = rsaSHA5124096 then env.verify key d.content d.signature else false

/-! ## Every certificate counts -/

/-- A valid certificate. -/
structure Certificate where
  text : List UInt8
  signerId : List UInt8
  key : PublicKey
  known : 0 < signerId.length
  decodes : (pemContent text).bind env.decode = some (signerId, key)

variable {env}

/-- The entry of a certificate. -/
def Certificate.entry (c : Certificate env) : List UInt8 × PublicKey := (c.signerId, c.key)

/-- The file of an entry. -/
def DirectoryEntry.file : DirectoryEntry → Option (Option (List UInt8))
  | regular content => some content
  | other => none

/-- The files of a directory are these certificates. -/
def Lists (entries : List DirectoryEntry) (certs : List (Certificate env)) : Prop :=
  entries.filterMap DirectoryEntry.file = certs.map fun c => some c.text

/-- The stream is signed with the key of a certificate. -/
structure SU3Data.SignedBy (d : SU3Data) (c : Certificate env) : Prop where
  signatureType : d.signatureType = rsaSHA5124096
  signer : d.signer = c.signerId
  verify : env.verify c.key d.content d.signature = true

/-- `done` are the certificates that have been processed. -/
structure CertState.Holds (s : CertState) (done : List (Certificate env)) : Prop where
  x509 : s.x509.signingKeys.Perm (done.map Certificate.entry)
  keys : s.keys = s.x509.signingKeys
  numCerts : 0 < s.numCerts ↔ done ≠ []

theorem getSigningKey_certificate (x : X509) (c : Certificate env) :
    x.getSigningKey env c.text =
      (x.signingKeys.put c.signerId c.key, { signingKeys := x.signingKeys.put c.signerId c.key }) := by
  obtain ⟨base64, hcontent, hdecode⟩ := Option.bind_eq_some_iff.mp c.decodes
  rw [X509.getSigningKey, X509.processCert, hcontent]
  dsimp only
  rw [X509.pemDecode, hdecode]
  dsimp only
  rw [if_pos c.known]

/-- A signer that is not there yet is added. -/
theorem put_perm {keys : SigningKeys} {done : List (Certificate env)} {c : Certificate env}
    (hkeys : keys.Perm (done.map Certificate.entry)) (hnew : c.signerId ∉ done.map Certificate.signerId) :
    (keys.put c.signerId c.key).Perm ((done ++ [c]).map Certificate.entry) := by
  have herase : AssocMap.erase keys c.signerId = keys := by
    refine List.filter_eq_self.mpr fun e he => ?_
    obtain ⟨d, hd, rfl⟩ := List.mem_map.mp (hkeys.mem_iff.mp he)
    refine decide_eq_true fun heq => hnew ?_
    exact heq ▸ List.mem_map_of_mem hd
  rw [SigningKeys.put, herase, List.map_append]
  exact (hkeys.cons _).trans (List.perm_append_singleton _ _).symm

/-- One more certificate. -/
theorem CertState.Holds.next {s : CertState} {done : List (Certificate env)} (h : s.Holds done)
    {c : Certificate env} (hnew : c.signerId ∉ done.map Certificate.signerId) {keys : SigningKeys}
    (hkeys : keys = s.x509.signingKeys.put c.signerId c.key) :
    ({ keys, x509 := { signingKeys := keys },
       numCerts := if s.numCerts < 255 then s.numCerts + 1 else s.numCerts } : CertState).Holds
      (done ++ [c]) where
  x509 := hkeys ▸ put_perm h.x509 hnew
  keys := rfl
  numCerts := by
    refine iff_of_true ?_ (by simp)
    show 0 < if s.numCerts < 255 then s.numCerts + 1 else s.numCerts
    split <;> omega

theorem Lists.of_other {entries : List DirectoryEntry} {certs : List (Certificate env)}
    (h : Lists (.other :: entries) certs) : Lists entries certs := h

theorem Lists.of_regular {content : Option (List UInt8)} {entries : List DirectoryEntry}
    {certs : List (Certificate env)} (h : Lists (.regular content :: entries) certs) :
    ∃ c rest, certs = c :: rest ∧ content = some c.text ∧ Lists entries rest := by
  cases certs with
  | nil => cases h
  | cons c rest =>
    obtain ⟨hcontent, hrest⟩ := List.cons_eq_cons.mp h
    exact ⟨c, rest, rfl, hcontent, hrest⟩

/-- The rest of a directory of certificates. -/
theorem processEntries_of_holds {entries : List DirectoryEntry} {done certs : List (Certificate env)}
    (hlists : Lists entries certs) (hids : ((done ++ certs).map Certificate.signerId).Nodup)
    {s : CertState} (h : s.Holds done) :
    ∃ s', processEntries env entries s = (true, s') ∧ s'.Holds (done ++ certs) := by
  induction entries generalizing done certs s with
  | nil =>
    obtain rfl : certs = [] := List.map_eq_nil_iff.mp hlists.symm
    exact ⟨s, rfl, (List.append_nil done).symm ▸ h⟩
  | cons entry entries ih =>
    cases entry with
    | other => exact ih hlists.of_other hids h
    | regular content =>
      obtain ⟨c, rest, rfl, rfl, hrest⟩ := hlists.of_regular
      have hnew : c.signerId ∉ done.map Certificate.signerId := by
        rw [List.map_append, List.nodup_append'] at hids
        exact fun hmem => hids.2.2 hmem List.mem_cons_self
      rw [processEntries, getSigningKey_certificate]
      dsimp only
      rw [if_neg (by simp [SigningKeys.put])]
      rw [List.append_cons] at hids ⊢
      exact ih hrest hids (h.next hnew rfl)

/-- An entry of the keys is found. -/
theorem find_of_perm {keys : SigningKeys} {certs : List (Certificate env)}
    (hkeys : keys.Perm (certs.map Certificate.entry))
    (hids : (certs.map Certificate.signerId).Nodup) {c : Certificate env} (hc : c ∈ certs) :
    AssocMap.find keys c.signerId = some c.key := by
  have hdistinct : AssocMap.Distinct keys := by
    refine (hkeys.map Prod.fst).nodup_iff.mpr ?_
    rwa [List.map_map]
  exact hdistinct.find_eq_some (hkeys.mem_iff.mpr (List.mem_map_of_mem hc))

/-- The keys of all certificates of a directory are there, and a stream that is signed with one of them is
accepted. -/
theorem processCerts_spec {entries : List DirectoryEntry} {certs : List (Certificate env)}
    (hlists : Lists entries certs) (hids : (certs.map Certificate.signerId).Nodup) :
    (processCerts env (.directory entries) []).1 = !certs.isEmpty ∧
      (processCerts env (.directory entries) []).2.Perm (certs.map Certificate.entry) ∧
      ∀ c ∈ certs, ∀ d : SU3Data, d.SignedBy c →
        verifySignature env (processCerts env (.directory entries) []).2 d = true := by
  have hstart : ({ keys := [] } : CertState).Holds ([] : List (Certificate env)) :=
    ⟨List.Perm.refl _, rfl, iff_of_false (lt_irrefl _) fun hne => hne rfl⟩
  obtain ⟨s, hrun, hs⟩ := processEntries_of_holds hlists (by rwa [List.nil_append]) hstart
  rw [List.nil_append] at hs
  have hkeys : s.keys.Perm (certs.map Certificate.entry) := hs.keys ▸ hs.x509
  rw [processCerts, hrun]
  refine ⟨?_, hkeys, fun c hc d hd => ?_⟩
  · show decide (s.numCerts > 0) = !certs.isEmpty
    rw [Bool.eq_iff_iff, decide_eq_true_iff, gt_iff_lt, hs.numCerts]
    simp
  · rw [verifySignature, hd.signer, find_of_perm hkeys hids hc]
    dsimp only
    rw [if_pos hd.signatureType]
    exact hd.verify

/-! ### An example -/

/-- The Base64 text of a certificate of `a@b.i2p` with the modulus 197. -/
def firstBase64 : List UInt8 :=
  ascii "MEAwPqADAgECAgEBMAAwHDEAMQAxADEAMQAxEDAOBgNVBAMMB2FAYi5pMnAwADAAMBAwAAMMADAJAgIAxQIDAQAB"

/-- The Base64 text of a certificate of `c@d.i2p` with the modulus 199. -/
def secondBase64 : List UInt8 :=
  ascii "MEAwPqADAgECAgEBMAAwHDEAMQAxADEAMQAxEDAOBgNVBAMMB2NAZC5pMnAwADAAMBAwAAMMADAJAgIAxwIDAQAB"

theorem length_modulus (n : UInt8) : (List.replicate 511 0 ++ [n]).length = 512 := by
  rw [List.length_append, List.length_replicate, List.length_singleton]

/-- A modulus of one byte. -/
def modulus (n : UInt8) : PublicKey := ⟨List.replicate 511 0 ++ [n], length_modulus n⟩

/-- What is decoded of the two texts. Line ends do not count. -/
def exampleReseedEnv : ReseedEnv where
  decode text :=
    let base64 := text.filter fun b => decide (b ≠ 10)
    if base64 = firstBase64 then some (ascii "a@b.i2p", modulus 197)
    else if base64 = secondBase64 then some (ascii "c@d.i2p", modulus 199)
    else none
  verify _ _ _ := false

/-- A text between header and footer. -/
def pem (base64 : List UInt8) : List UInt8 := pemHeader ++ [10] ++ base64 ++ [10] ++ pemFooter ++ [10]

/-- Between header and footer stand the text and two line ends. -/
theorem pemContent_first : pemContent (pem firstBase64) = some ([10] ++ firstBase64 ++ [10]) := by
  rw [pemContent, pem, firstBase64, pemHeader, pemFooter]
  repeat rw [ascii_ofList]
  decide +kernel

theorem pemContent_second : pemContent (pem secondBase64) = some ([10] ++ secondBase64 ++ [10]) := by
  rw [pemContent, pem, secondBase64, pemHeader, pemFooter]
  repeat rw [ascii_ofList]
  decide +kernel

theorem firstCertificate_known : 0 < (ascii "a@b.i2p").length := by decide

theorem firstCertificate_decodes :
    (pemContent (pem firstBase64)).bind exampleReseedEnv.decode =
      some (ascii "a@b.i2p", modulus 197) := by
  rw [pemContent_first, Option.bind_some, exampleReseedEnv]
  dsimp only
  rw [if_pos]
  rw [firstBase64, ascii_ofList]
  decide +kernel

theorem secondCertificate_known : 0 < (ascii "c@d.i2p").length := by decide

theorem secondCertificate_decodes :
    (pemContent (pem secondBase64)).bind exampleReseedEnv.decode =
      some (ascii "c@d.i2p", modulus 199) := by
  rw [pemContent_second, Option.bind_some, exampleReseedEnv]
  dsimp only
  rw [if_neg, if_pos]
  all_goals
    rw [secondBase64]
    repeat rw [firstBase64]
    repeat rw [ascii_ofList]
    decide +kernel

/-- The certificate of `a@b.i2p`. -/
def firstCertificate : Certificate exampleReseedEnv where
  text := pem firstBase64
  signerId := ascii "a@b.i2p"
  key := modulus 197
  known := firstCertificate_known
  decodes := firstCertificate_decodes

/-- The certificate of `c@d.i2p`. -/
def secondCertificate : Certificate exampleReseedEnv where
  text := pem secondBase64
  signerId := ascii "c@d.i2p"
  key := modulus 199
  known := secondCertificate_known
  decodes := secondCertificate_decodes

theorem secondFirst_nodup :
    ([secondCertificate, firstCertificate].map Certificate.signerId).Nodup := by
  decide

theorem processCerts_two :
    (processCerts exampleReseedEnv (.directory [.regular (some (pem secondBase64)), .other,
      .regular (some (pem firstBase64))]) []).2.Perm
        [(ascii "c@d.i2p", modulus 199), (ascii "a@b.i2p", modulus 197)] :=
  (@processCerts_spec exampleReseedEnv [.regular (some (pem secondBase64)), .other,
    .regular (some (pem firstBase64))] [secondCertificate, firstCertificate] rfl
    secondFirst_nodup).2.1

end Client
