import Xi2p.Client.I2PControlRoundTrip

/-!
# The echo of a string

`HandleEcho` of `client/api/i2p_control/session.cc`, seen from a client: the string is written by the
client, read and written by the server, and read by the client.

* `parse_echoRequest`: what the server makes of the request, whatever the string is.
* `Session.echoes_iff`: the string comes back if it is a plain text and not empty.
-/

namespace I2PControl

open Json Text

variable {Double : Type} {fmt : DoubleFormat Double}

/-! ## Requests and responses -/

/-- A request is restored, together with its version. -/
def Request.RestoredWithVersion (fmt : DoubleFormat Double) (r : Request Double) : Prop :=
  ∃ r', parse fmt (r.toJsonString fmt) = some r' ∧ r'.Same r ∧ r'.version = r.version

/-- A response is restored, together with its version. -/
def Response.RestoredWithVersion (fmt : DoubleFormat Double) (r : Response Double) : Prop :=
  ∃ m ∈ r.method, ∃ r', parse fmt m (r.toJsonString fmt) = some r' ∧ r'.Same r ∧
    r'.version = r.version

theorem plainText_defaultVersion : PlainText (ascii "2.0") := by decide

theorem Request.restoredWithVersion_iff (r : Request Double) :
    r.RestoredWithVersion fmt ↔ r.Restorable fmt ∧ PlainText r.version := by
  constructor
  · rintro ⟨r', h, hsame, hversion⟩
    exact restorable_of_parse h hsame (.inl hversion)
  · rintro ⟨hr, hversion⟩
    exact parse_of_restorable hr hversion

/-- With the version that every request has, what becomes of the version needs not be looked at. -/
theorem Request.restored_iff {r : Request Double} (hversion : r.version = ascii "2.0") :
    r.Restored fmt ↔ r.Restorable fmt := by
  constructor
  · rintro ⟨r', h, hsame⟩
    exact (restorable_of_parse h hsame (.inr hversion)).1
  · intro hr
    obtain ⟨r', h, hsame, -⟩ := parse_of_restorable hr (hversion ▸ plainText_defaultVersion)
    exact ⟨r', h, hsame⟩

theorem Response.restoredWithVersion_iff {r : Response Double} (he : r.error = none) :
    r.RestoredWithVersion fmt ↔ r.Restorable fmt ∧ PlainText r.version := by
  constructor
  · rintro ⟨m, hm, r', h, hsame, hversion⟩
    exact restorable_of_parse hm he h hsame (.inl hversion)
  · rintro ⟨hr, hversion⟩
    exact parse_of_restorable he hr hversion

theorem Response.restored_iff {r : Response Double} (he : r.error = none)
    (hversion : r.version = ascii "2.0") : r.Restored fmt ↔ r.Restorable fmt := by
  constructor
  · rintro ⟨m, hm, r', h, hsame⟩
    exact (restorable_of_parse hm he h hsame (.inr hversion)).1
  · intro hr
    obtain ⟨m, hm, r', h, hsame, -⟩ :=
      parse_of_restorable he hr (hversion ▸ plainText_defaultVersion)
    exact ⟨m, hm, r', h, hsame⟩

/-! ## Tokens -/

/-- `TOKEN_SIZE`. -/
abbrev tokenSize : ℕ := 8

/-- An upper case digit of base 16. -/
def hexDigit (d : UInt8) : UInt8 := if d < 10 then 48 + d else 55 + d

/-- `GenerateToken`, from random bytes. -/
def generateToken (rand : List UInt8) : List UInt8 :=
  rand.flatMap fun b => [hexDigit (b / 16), hexDigit (b % 16)]

theorem generateToken_ne_nil {rand : List UInt8} (h : rand.length = tokenSize) :
    generateToken rand ≠ [] := by
  cases rand with
  | nil => cases h
  | cons b rand =>
    rw [generateToken, List.flatMap_cons]
    exact List.cons_ne_nil _ _

/-- A text without bytes behind ASCII is encoded in UTF-8. -/
theorem isUtf8_of_ascii {s : List UInt8} (h : ∀ b ∈ s, b < 0x80) : IsUtf8 s := by
  induction s with
  | nil => rfl
  | cons b s ih =>
    obtain ⟨hb, hs⟩ := List.forall_mem_cons.mp h
    exact (isUtf8_append_cons hb [] s).mpr ⟨rfl, ih hs⟩

theorem plainText_generateToken (rand : List UInt8) : PlainText (generateToken rand) := by
  have hall : ∀ n : Fin 256,
      (hexDigit (UInt8.ofFin n / 16) ≠ quote ∧ hexDigit (UInt8.ofFin n / 16) ≠ backslash ∧
        32 ≤ hexDigit (UInt8.ofFin n / 16) ∧ hexDigit (UInt8.ofFin n / 16) < 0x80) ∧
      hexDigit (UInt8.ofFin n % 16) ≠ quote ∧ hexDigit (UInt8.ofFin n % 16) ≠ backslash ∧
        32 ≤ hexDigit (UInt8.ofFin n % 16) ∧ hexDigit (UInt8.ofFin n % 16) < 0x80 := by
    decide +kernel
  have hbyte : ∀ b ∈ generateToken rand, b ≠ quote ∧ b ≠ backslash ∧ 32 ≤ b ∧ b < 0x80 := by
    intro b hb
    obtain ⟨a, -, hmem⟩ := List.mem_flatMap.mp hb
    rcases List.mem_cons.mp hmem with rfl | hmem
    · exact (hall a.toFin).1
    · rw [List.mem_singleton.mp hmem]
      exact (hall a.toFin).2
  exact ⟨fun b hb => ⟨(hbyte b hb).1, (hbyte b hb).2.1, (hbyte b hb).2.2.1⟩,
    isUtf8_of_ascii fun b hb => (hbyte b hb).2.2.2⟩

/-! ## An echo -/

/-- The request of a client that wants a string back. -/
def echoRequest (n : UInt64) (token s : List UInt8) : Request Double :=
  { id := .size n, method := .echo, token, params := setParam noParams MethodEcho.echo (.string s) }

/-- The response of the server. -/
def echoResponse (n : UInt64) (s : List UInt8) : Response Double :=
  { id := .size n, method := some .echo
    params := setParam noParams MethodEcho.result (.string s) }

/-- The client gets the string back. -/
def Session.Echoes (fmt : DoubleFormat Double) (server : Session Double) (n : UInt64)
    (token s : List UInt8) : Prop :=
  ∃ r, Response.parse fmt .echo
      ((server.handleRequest fmt ((echoRequest n token s).toJsonString fmt)).toJsonString fmt) =
        some r ∧ r.params MethodEcho.result = some (.string s)

/-- The parameters of an echo are one string. -/
theorem members_echo {key : ℕ} (hkey : key < 2) (s : List UInt8) :
    Method.members fmt .echo (setParam noParams key (.string s)) =
      [(Method.echo.traits.getD key [], (ValueType.string s : ValueType Double).doc fmt)] := by
  have hlength : Method.echo.traits.length = 2 := by decide
  have hrange : List.range 2 = [0, 1] := by decide
  rw [Method.members, Method.entries, hlength, hrange]
  obtain rfl | rfl : key = 0 ∨ key = 1 := by omega
  · simp [setParam, noParams, Function.update]
  · simp [setParam, noParams, Function.update]

theorem weight_string (s : List UInt8) :
    weight ((ValueType.string s : ValueType Double).doc fmt).write = weight s := by
  by_cases h : s = []
  · rw [h, ValueType.doc_nil, Doc.write, isLiteral_null.2, weight_nil]
  · rw [ValueType.doc_string h, Doc.write]
    simp [byteWeight_punctuation]

/-- The parameter of an echo, parsed. -/
theorem parse_echo {key : ℕ} {tree : PTree} {params : Params Double}
    (h : (Form.required [(key, .string)]).parse fmt Method.echo.traits tree = some params) :
    ∃ t, tree.find (Method.echo.traits.getD key []) = some t ∧
      params = setParam noParams key (.string t.data) := by
  rw [Form.parse, List.foldlM_cons] at h
  obtain ⟨p, hp, hrest⟩ := Option.bind_eq_some_iff.mp h
  obtain rfl := Option.some.inj hrest
  obtain ⟨t, ht, h⟩ := Option.bind_eq_some_iff.mp hp
  obtain ⟨v, hv, h⟩ := Option.bind_eq_some_iff.mp h
  obtain rfl := Option.some.inj hv
  exact ⟨t, ht, (Option.some.inj h).symm⟩

/-! ## What the server reads -/

/-- The first member of an object. -/
theorem members_head {fuel : ℕ} {key input rest : List UInt8} {ms : List (List UInt8 × PTree)}
    (hkey : Plain key)
    (h : members fuel (quote :: (key ++ quote :: colon :: input)) = some (ms, rest)) :
    ∃ fuel' t input' ms', fuel = fuel' + 1 ∧ value fuel' input = some (t, input') ∧
      ms = (key, t) :: ms' ∧ ∀ input₁, expect comma input' = some input₁ →
        members fuel' input₁ = some (ms', rest) := by
  cases fuel with
  | zero => cases h
  | succ fuel =>
    rw [members_cons hkey] at h
    obtain ⟨⟨t, input'⟩, hvalue, h⟩ := Option.bind_eq_some_iff.mp h
    dsimp only [membersAfter] at h
    split at h
    case h_1 input₁ hcomma =>
      obtain ⟨⟨ms', rest'⟩, hms, heq⟩ := Option.map_eq_some_iff.mp h
      obtain ⟨rfl, rfl⟩ := Prod.mk.inj heq
      refine ⟨fuel, t, input', ms', rfl, hvalue, rfl, fun input₂ hinput => ?_⟩
      obtain rfl : input₁ = input₂ := Option.some.inj (hcomma.symm.trans hinput)
      exact hms
    case h_2 hcomma =>
      obtain ⟨rest', -, heq⟩ := Option.map_eq_some_iff.mp h
      obtain ⟨rfl, rfl⟩ := Prod.mk.inj heq
      refine ⟨fuel, t, input', [], rfl, hvalue, rfl, fun input₂ hinput => ?_⟩
      rw [hcomma] at hinput
      cases hinput

/-- A member in front of others, whose value is read as it was written. -/
theorem members_front {fuel : ℕ} {key input rest : List UInt8} {d : Doc}
    {ms : List (List UInt8 × PTree)} (hkey : Plain key) (hd : d.Readable)
    (hcomplete : d.isComplete = true) (hfuel : d.write.length + 1 < fuel)
    (h : members fuel (quote :: (key ++ quote :: colon :: (d.write ++ comma :: input))) =
      some (ms, rest)) :
    ∃ fuel' ms', fuel = fuel' + 1 ∧ ms = (key, d.tree) :: ms' ∧
      members fuel' input = some (ms', rest) := by
  obtain ⟨fuel', t, input', ms', rfl, hvalue, rfl, hnext⟩ := members_head hkey h
  rw [Doc.value_write d hd.plain hd.tokens (stops_cons (.inl rfl) input) fuel' (by omega),
    if_pos hcomplete] at hvalue
  obtain ⟨rfl, rfl⟩ := Prod.mk.inj (Option.some.inj hvalue)
  exact ⟨fuel', ms', rfl, rfl, hnext input (expect_self rfl input)⟩

/-- A request for an echo, with the documents of the ID, of the string and of the version. -/
def echoDoc (id : Doc) (token : List UInt8) (d version : Doc) : Doc :=
  .object [(ascii "id", id), (ascii "method", .string (ascii "Echo")),
    (ascii "params", .object [(ascii "Token", .string token), (ascii "Echo", d)] false),
    (ascii "jsonrpc", version)] false

theorem doc_echoRequest (n : UInt64) {token : List UInt8} (htoken : token ≠ []) (s : List UInt8) :
    (echoRequest n token s).doc fmt = echoDoc (.literal (decimal n.toNat)) token
      ((ValueType.string s : ValueType Double).doc fmt) (.string (ascii "2.0")) := by
  have hmembers : Method.members fmt .echo (setParam noParams MethodEcho.echo (.string s)) =
      [(ascii "Echo", (ValueType.string s : ValueType Double).doc fmt)] := members_echo (by decide) s
  have hentries : Method.echo.entries (setParam noParams MethodEcho.echo (.string s) :
      Params Double) ≠ [] := by
    intro hnil
    rw [Method.members, hnil] at hmembers
    cases hmembers
  have hparams : (echoRequest n token s).paramMembers fmt = [(ascii "Token", .string token),
      (ascii "Echo", (ValueType.string s : ValueType Double).doc fmt)] := by
    rw [Request.paramMembers]
    show (if token ≠ [] then _ else _) ++ Method.members fmt .echo _ = _
    rw [if_pos htoken]
    exact congrArg _ hmembers
  rw [Request.doc, Request.members, hparams, echoDoc]
  simp [echoRequest, hentries, ValueType.doc, Method.trait]

/-- Only the strings and the token have a weight. -/
theorem weight_echoDoc {id id' : Doc} (token : List UInt8) {d d' version version' : Doc}
    (hid : weight id.write = weight id'.write)
    (hversion : weight version.write = weight version'.write) :
    weight (echoDoc id token d version).write + weight d'.write =
      weight (echoDoc id' token d' version').write + weight d.write := by
  simp only [echoDoc, Doc.weight_object, Doc.weightMembers, List.map_cons, List.map_nil,
    List.sum_cons, List.sum_nil, List.cons_ne_nil, if_false, hid, hversion]
  omega

theorem write_echoDoc (id : Doc) (token : List UInt8) (d version : Doc) :
    (echoDoc id token d version).write =
      openBrace :: quote :: (ascii "id" ++ quote :: colon ::
        (id.write ++ comma :: quote :: (ascii "method" ++ quote :: colon ::
          ((Doc.string (ascii "Echo")).write ++ comma :: quote :: (ascii "params" ++
            quote :: colon :: openBrace :: quote :: (ascii "Token" ++ quote :: colon ::
              ((Doc.string token).write ++ comma :: quote :: (ascii "Echo" ++ quote :: colon ::
                (d.write ++ closeBrace :: comma :: quote :: (ascii "jsonrpc" ++
                  quote :: colon :: (version.write ++ [closeBrace]))))))))))) := by
  simp [echoDoc, Doc.write, Doc.writeMembers, Doc.closing]

theorem readable_string {s : List UInt8} (hs : Plain s) : (Doc.string s).Readable := by
  constructor
  · rwa [Doc.strings, List.forall_mem_singleton]
  · rw [Doc.tokens]
    exact List.forall_mem_nil _

theorem readable_decimal (n : ℕ) : (Doc.literal (decimal n)).Readable := by
  constructor
  · rw [Doc.strings]
    exact List.forall_mem_nil _
  · rw [Doc.tokens, List.forall_mem_singleton]
    exact fun b hb => (isLiteralChar_of_isDigit (isDigit_decimal n b hb)).1

/-- What a reader finds in front of the string, and where the string should be. -/
theorem tree_echoDoc {n : ℕ} {token : List UInt8} {d version : Doc} (htoken : Plain token) {t : PTree}
    (h : readJson (echoDoc (.literal (decimal n)) token d version).write = some t) :
    ∃ e cs ms, t = .node ((ascii "id", .leaf (decimal n)) ::
        (ascii "method", .leaf (ascii "Echo")) ::
        (ascii "params", .node ((ascii "Token", .leaf token) :: (ascii "Echo", e) :: cs)) :: ms) ∧
      (d.Readable → d.isComplete = true → e = d.tree) := by
  have hkeys : Plain (ascii "id") ∧ Plain (ascii "method") ∧ Plain (ascii "params") ∧
      Plain (ascii "Token") ∧ Plain (ascii "Echo") := by decide
  obtain ⟨hidKey, hmethodKey, hparamsKey, htokenKey, hechoKey⟩ := hkeys
  rw [readJson] at h
  split_ifs at h
  obtain ⟨⟨t', rest⟩, hvalue, h⟩ := Option.bind_eq_some_iff.mp h
  dsimp only at h
  split_ifs at h
  obtain rfl : t' = t := Option.some.inj h
  generalize hfuel : (echoDoc (.literal (decimal n)) token d version).write.length = fuel at hvalue
  rw [write_echoDoc] at hfuel hvalue
  simp only [List.length_cons, List.length_append] at hfuel
  -- the members of the request, one after the other
  rw [value_object (by decide) (by decide)] at hvalue
  obtain ⟨⟨ms, rest'⟩, hms, heq⟩ := Option.map_eq_some_iff.mp hvalue
  obtain ⟨rfl, rfl⟩ := Prod.mk.inj heq
  obtain ⟨fuel₁, ms₁, rfl, rfl, hms₁⟩ := members_front hidKey (readable_decimal n)
    (by rw [Doc.isComplete, isLiteral_of_isNumber (isNumber_decimal n)]) (by omega) hms
  have hmethod : (Doc.string (ascii "Echo")).write.length + 1 < fuel₁ := by omega
  obtain ⟨fuel₂, ms₂, rfl, rfl, hms₂⟩ := members_front hmethodKey (readable_string hechoKey)
    (by rw [Doc.isComplete]) hmethod hms₁
  obtain ⟨fuel₃, p, input, ms₃, rfl, hp, rfl, -⟩ := members_head hparamsKey hms₂
  -- the token and the string
  obtain ⟨fuel₄, rfl⟩ : ∃ k, fuel₃ = k + 1 := ⟨fuel₃ - 1, by omega⟩
  rw [value_object (by decide) (by decide)] at hp
  obtain ⟨⟨cs, rest''⟩, hcs, heq⟩ := Option.map_eq_some_iff.mp hp
  obtain ⟨rfl, -⟩ := Prod.mk.inj heq
  have htoken' : (Doc.string token).write.length + 1 < fuel₄ := by omega
  obtain ⟨fuel₅, cs₁, rfl, rfl, hcs₁⟩ := members_front htokenKey (readable_string htoken)
    (by rw [Doc.isComplete]) htoken' hcs
  obtain ⟨fuel₆, e, input', cs₂, rfl, he, rfl, -⟩ := members_head hechoKey hcs₁
  refine ⟨e, cs₂, ms₃, by rw [Doc.tree, Doc.tree, Doc.tree], fun hd hcomplete => ?_⟩
  rw [Doc.value_write d hd.plain hd.tokens (stops_cons (.inr rfl) _) fuel₆ (by omega),
    if_pos hcomplete] at he
  exact (Prod.mk.inj (Option.some.inj he)).1.symm

theorem weight_version : weight (Doc.string (ascii "2.0")).write = 0 := by
  rw [Doc.write]
  decide

theorem weight_id (n : ℕ) :
    weight (Doc.literal (decimal n)).write = weight (Doc.literal []).write := by
  rw [Doc.write, Doc.write, weight_decimal, weight_nil]

/-- A tree with an ID, a method, a token, a string and a version. -/
theorem covers_echoDoc {t v : PTree} {id e : PTree} {token : List UInt8}
    {cs ms : List (List UInt8 × PTree)} (ht : t = .node ((ascii "id", id) ::
      (ascii "method", .leaf (ascii "Echo")) ::
      (ascii "params", .node ((ascii "Token", .leaf token) :: (ascii "Echo", e) :: cs)) :: ms))
    (hv : t.find (ascii "jsonrpc") = some v) :
    Covers 0 t (echoDoc (.literal []) token (.string e.data) (.literal [])) := by
  have hparams : Covers 0 (.node ((ascii "Token", .leaf token) :: (ascii "Echo", e) :: cs))
      (.object [(ascii "Token", .string token), (ascii "Echo", .string e.data)] false) := by
    refine (covers_object ?_ (fun _ => 0) false ?_).mono (Nat.le_refl 0)
    · simp only [List.map_cons, List.map_nil]
      decide
    · simp only [List.forall_mem_cons]
      exact ⟨⟨.leaf token, List.mem_cons_self, covers_string _⟩,
        ⟨e, List.mem_cons_of_mem _ List.mem_cons_self, covers_string e⟩, List.forall_mem_nil _⟩
  have hmem := AssocMap.mem_of_find hv
  rw [ht] at hmem ⊢
  refine (covers_object ?_ (fun _ => 0) false ?_).mono (Nat.le_refl 0)
  · simp only [List.map_cons, List.map_nil]
    decide
  · simp only [List.forall_mem_cons]
    exact ⟨⟨id, List.mem_cons_self, covers_literal rfl⟩,
      ⟨.leaf (ascii "Echo"), List.mem_cons_of_mem _ List.mem_cons_self, covers_string _⟩,
      ⟨_, List.mem_cons_of_mem _ (List.mem_cons_of_mem _ List.mem_cons_self), hparams⟩,
      ⟨v, hmem, covers_literal rfl⟩, List.forall_mem_nil _⟩

/-- The server reads a request for the echo of a string, with the ID and the token of the client,
whatever the string is. The string does not weigh more than the one of the client. -/
theorem parse_echoRequest {n : UInt64} {token s : List UInt8} (htoken : PlainText token)
    (hne : token ≠ []) {r : Request Double}
    (h : Request.parse fmt ((echoRequest n token s).toJsonString fmt) = some r) :
    ∃ s', r.id = .size n ∧ r.method = .echo ∧ r.token = token ∧
      r.params = setParam noParams MethodEcho.echo (.string s') ∧ weight s' ≤ weight s ∧
      (s = [] → s' = ascii "null") := by
  obtain ⟨t, name, p, hread, hdata, hname, hmethod, hp, htokenFound, hparse⟩ :=
    Request.parse_eq_some h
  rw [← Request.write_doc, doc_echoRequest n hne s] at hread
  obtain ⟨e, cs, ms, ht, he⟩ := tree_echoDoc htoken.1 hread
  have hid : t.find (ascii "id") = some (.leaf (decimal n.toNat)) := by
    rw [ht]
    simp [PTree.find, AssocMap.find, PTree.children]
  have hname' : t.find (ascii "method") = some (.leaf (ascii "Echo")) := by
    rw [ht]
    rfl
  have hp' : t.find (ascii "params") =
      some (.node ((ascii "Token", .leaf token) :: (ascii "Echo", e) :: cs)) := by
    rw [ht]
    rfl
  obtain rfl := Option.some.inj (hp.symm.trans hp')
  obtain rfl := Option.some.inj (hname.symm.trans hname')
  have hecho : r.method = .echo := by
    have hinj : ∀ m : Method, ascii "Echo" = m.trait → m = .echo := by
      intro m
      cases m <;> decide
    exact hinj r.method hmethod
  have hecho' : (Form.required [(MethodEcho.echo, .string)]).parse fmt Method.echo.traits
      (.node ((ascii "Token", .leaf token) :: (ascii "Echo", e) :: cs)) = some r.params := by
    rw [hecho] at hparse
    exact hparse
  obtain ⟨e', he', hparams⟩ := parse_echo hecho'
  obtain rfl : e = e' := Option.some.inj he'
  obtain ⟨i, v, hi, hv, hversion, -⟩ := parseData_eq_some hdata
  refine ⟨e.data, ?_, hecho, ?_, hparams, ?_, fun hnil => ?_⟩
  · exact (Prod.mk.inj (Option.some.inj (hdata.symm.trans (parseData_written hid hv)))).1
  · rw [htokenFound]
    rfl
  · -- the request is heavier than what is read from it
    have hcost := (covers_echoDoc ht hv).weight_le
    obtain ⟨-, hle, -⟩ := cost_le_weight hread
    have hweight : weight (echoDoc (.literal (decimal n.toNat)) token
        ((ValueType.string s : ValueType Double).doc fmt) (.string (ascii "2.0"))).write +
          weight (Doc.string e.data).write =
        weight (echoDoc (.literal []) token (.string e.data) (.literal [])).write +
          weight ((ValueType.string s : ValueType Double).doc fmt).write :=
      weight_echoDoc token (weight_id n.toNat) weight_version
    have hstring : weight (Doc.string e.data).write = weight e.data := by
      rw [Doc.write]
      simp [byteWeight_punctuation]
    rw [weight_string, hstring] at hweight
    omega
  · rw [hnil, ValueType.doc_nil] at he
    have hreadable : (Doc.literal (ascii "null")).Readable := by
      constructor
      · rw [Doc.strings]
        exact List.forall_mem_nil _
      · rw [Doc.tokens]
        decide +kernel
    rw [he hreadable isLiteral_null.1, Doc.tree, PTree.data]

/-! ## What the client reads -/

theorem doc_echoResponse (n : UInt64) (s : List UInt8) :
    (echoResponse n s : Response Double).doc fmt = .object [(ascii "id", .literal (decimal n.toNat)),
      (ascii "result", .object [(ascii "Result", (ValueType.string s : ValueType Double).doc fmt)]
        false), (ascii "jsonrpc", .string (ascii "2.0"))] false := by
  have hmembers : Method.members fmt .echo (setParam noParams MethodEcho.result (.string s)) =
      [(ascii "Result", (ValueType.string s : ValueType Double).doc fmt)] :=
    members_echo (by decide) s
  have hdoc : (echoResponse n s : Response Double).doc fmt =
      .object (Response.resultMembers fmt (.size n) .echo
        (setParam noParams MethodEcho.result (.string s)) (ascii "2.0")) false :=
    Response.doc_eq rfl rfl
  rw [hdoc, Response.resultMembers, hmembers, ValueType.doc]

/-- The client reads a string that does not weigh more than the one the server wrote; if they weigh
the same, it is plain. -/
theorem parse_echoResponse {n : UInt64} {s s' : List UInt8} {r : Response Double}
    (h : Response.parse fmt .echo ((echoResponse n s').toJsonString fmt) = some r)
    (hr : r.params MethodEcho.result = some (.string s)) :
    weight s ≤ weight s' ∧ (weight s' ≤ weight s → Plain s) := by
  obtain ⟨t, hread, hdata, -, hcases⟩ := Response.parse_eq_some h
  obtain ⟨i, v, hi, hv, -, -⟩ := parseData_eq_some hdata
  obtain ⟨-, -, result, hresult, hparse⟩ := hcases.resolve_left (by
    rintro ⟨e, c, -, -, hnone⟩
    rw [hnone] at hr
    cases hr)
  obtain ⟨e, he, hparams⟩ := parse_echo hparse
  have hdata : e.data = s := by
    rw [hparams, setParam, Function.update_self] at hr
    exact ValueType.string.inj (Option.some.inj hr)
  have hresultCovers : Covers 0 result (.object [(ascii "Result", .string s)] false) := by
    cases result with
    | leaf data => exact absurd (AssocMap.mem_of_find he) List.not_mem_nil
    | node cs =>
      refine (covers_object ?_ (fun _ => 0) false ?_).mono (Nat.le_refl 0)
      · rw [List.map_singleton]
        exact List.nodup_singleton _
      · rw [List.forall_mem_singleton, ← hdata]
        exact ⟨e, AssocMap.mem_of_find he, covers_string e⟩
  have hcovers : Covers 0 t (.object [(ascii "id", .literal []),
      (ascii "result", .object [(ascii "Result", .string s)] false),
      (ascii "jsonrpc", .literal [])] false) := by
    cases t with
    | leaf data => exact absurd (AssocMap.mem_of_find hi) List.not_mem_nil
    | node cs =>
      refine (covers_object ?_ (fun _ => 0) false ?_).mono (Nat.le_refl 0)
      · simp only [List.map_cons, List.map_nil]
        decide
      · simp only [List.forall_mem_cons]
        exact ⟨⟨i, AssocMap.mem_of_find hi, covers_literal rfl⟩,
          ⟨result, AssocMap.mem_of_find hresult, hresultCovers⟩,
          ⟨v, AssocMap.mem_of_find hv, covers_literal rfl⟩, List.forall_mem_nil _⟩
  obtain ⟨-, hle, hplain⟩ := cost_le_weight hread
  have hcost := hcovers.weight_le
  rw [← Response.write_doc, doc_echoResponse] at hle hplain
  have hstring : weight (Doc.string s).write = weight s := by
    rw [Doc.write]
    simp [byteWeight_punctuation]
  have hnil : weight (Doc.literal []).write = 0 := by rw [Doc.write, weight_nil]
  have hid := weight_id n.toNat
  simp only [Doc.weight_object, Doc.weightMembers, List.map_cons, List.map_nil, List.sum_cons,
    List.sum_nil, List.cons_ne_nil, if_false, weight_string, hstring, weight_version, hnil, hid]
    at hle hplain hcost
  refine ⟨by omega, fun hge => ?_⟩
  exact hcovers.plain (hplain.resolve_right (by omega)) s (by simp [Doc.strings, Doc.stringsMembers])

/-! ## The echo -/

/-- The request of a client is accepted as far as its token is concerned. -/
def Session.Knows (server : Session Double) (token : List UInt8) : Prop :=
  server.authenticate { method := .echo, token } = none

theorem Session.handleRequest_echo {server : Session Double} {text token : List UInt8}
    (hknows : server.Knows token) {r : Request Double} {n : UInt64} {s : List UInt8}
    (h : Request.parse fmt text = some r) (hid : r.id = .size n) (hmethod : r.method = .echo)
    (htoken : r.token = token)
    (hparam : r.params MethodEcho.echo = some (.string s)) :
    server.handleRequest fmt text = echoResponse n s := by
  have hauth : server.authenticate r = none := by
    rw [← htoken] at hknows
    exact hknows
  rw [handleRequest, h]
  dsimp only
  rw [hmethod]
  dsimp only [handler]
  rw [if_neg (by decide), hauth]
  dsimp only [handleEcho]
  rw [hparam, hid]
  rfl

/-- A request that cannot be read is answered with an error, and nothing else. -/
theorem not_parse_error {r : Response Double}
    (h : Response.parse fmt .echo
      (({ error := some .parseError } : Response Double).toJsonString fmt) = some r)
    (v : ValueType Double) : r.params MethodEcho.result ≠ some v := by
  obtain ⟨t, hread, -, -, hcases⟩ := Response.parse_eq_some h
  rcases hcases with ⟨e, c, -, -, hnone⟩ | ⟨hnone, -⟩
  · rw [hnone]
    exact fun heq => by cases heq
  · -- the text is read as it was written, with the error
    have hdoc : (({ error := some .parseError } : Response Double).doc fmt) =
        .object [(ascii "id", .literal (decimal 0)), (ascii "jsonrpc", .string (ascii "2.0")),
          (ascii "error", .object [(ascii "code", .literal (45 :: decimal 32700)),
            (ascii "message", .string ErrorCode.parseError.trait)] false)] false := rfl
    rw [← Response.write_doc, hdoc] at hread
    have hreadable : (Doc.object [(ascii "id", .literal (decimal 0)),
        (ascii "jsonrpc", .string (ascii "2.0")),
        (ascii "error", .object [(ascii "code", .literal (45 :: decimal 32700)),
          (ascii "message", .string ErrorCode.parseError.trait)] false)] false).Readable := by
      constructor
      · simp only [Doc.strings, Doc.stringsMembers]
        decide
      · simp only [Doc.tokens, Doc.tokensMembers]
        decide +kernel
    rw [Doc.readJson_write hreadable] at hread
    split_ifs at hread
    rw [← Option.some.inj hread] at hnone
    cases hnone

theorem setParam_self (params : Params Double) (key : ℕ) (v : ValueType Double) :
    setParam params key v key = some v := Function.update_self _ _ _

/-- An echo with one string is accepted, both ways. -/
theorem accepts_echo {key : ℕ} {s : List UInt8} (hs : s ≠ [] ∧ PlainText s) :
    (Form.required [(key, .string)]).Accepts fmt 2
      (setParam noParams key (.string s) : Params Double) := by
  constructor
  · intro key' _ v hv
    by_cases hkey : key' = key
    · rw [hkey, setParam_self] at hv
      refine ⟨.string, ?_, s, (Option.some.inj hv).symm, hs.1, hs.2⟩
      rw [hkey]
      simp [Form.kind, AssocMap.find]
    · rw [setParam, Function.update_of_ne hkey] at hv
      cases hv
  · intro key' hkey'
    rw [List.mem_singleton.mp hkey', setParam_self]
    exact Option.some_ne_none _

/-- A string that is the same value. -/
theorem SameParams.eq_string {keys key : ℕ} {p q : Params Double} (h : SameParams keys p q)
    (hlt : key < keys) {s : List UInt8} (hq : q key = some (.string s)) :
    p key = some (.string s) := by
  obtain ⟨w, hw, hsame⟩ := h.exists_right hlt hq
  rw [hw, hsame.eq_of_ne fun j heq => by cases heq]

/-- The client reads a plain text that the server wrote. -/
theorem exists_parse_echoResponse (n : UInt64) {s : List UInt8} (hs : s ≠ [] ∧ PlainText s) :
    ∃ r, Response.parse fmt .echo ((echoResponse n s).toJsonString fmt) = some r ∧
      r.params MethodEcho.result = some (.string s) := by
  have hrestorable : (echoResponse n s : Response Double).Restorable fmt :=
    ⟨⟨n, rfl⟩, .echo, rfl, accepts_echo hs⟩
  obtain ⟨m, hm, r, hr, hsame, -⟩ :=
    Response.parse_of_restorable rfl hrestorable plainText_defaultVersion
  obtain rfl : Method.echo = m := Option.some.inj hm
  have hset : (echoResponse n s : Response Double).params MethodEcho.result = some (.string s) := by
    show setParam noParams MethodEcho.result (.string s) MethodEcho.result = some (.string s)
    exact setParam_self _ _ _
  exact ⟨r, hr, (hsame.params .echo rfl).eq_string (by decide) hset⟩

/-- A plain string in a request that is read is encoded in UTF-8. -/
theorem isUtf8_of_parse {n : UInt64} {token s : List UInt8} (htoken : Plain token)
    (hne : token ≠ []) (hs : Plain s) {r : Request Double}
    (h : Request.parse fmt ((echoRequest n token s).toJsonString fmt) = some r) : IsUtf8 s := by
  obtain ⟨t, -, -, hread, -⟩ := Request.parse_eq_some h
  rw [← Request.write_doc] at hread
  have hmem (hnil : s ≠ []) : s ∈ ((echoRequest n token s : Request Double).doc fmt).strings := by
    rw [doc_echoRequest n hne, ValueType.doc_string hnil]
    simp [echoDoc, Doc.strings, Doc.stringsMembers]
  have hplain : ∀ s' ∈ ((echoRequest n token s : Request Double).doc fmt).strings, Plain s' := by
    have hkeys : Plain (ascii "id") ∧ Plain (ascii "method") ∧ Plain (ascii "params") ∧
        Plain (ascii "Token") ∧ Plain (ascii "Echo") ∧ Plain (ascii "jsonrpc") ∧
        Plain (ascii "2.0") := by decide
    obtain ⟨hid, hmethod, hparams, htokenKey, hecho, hjsonrpc, hversion⟩ := hkeys
    have hstring : ∀ s' ∈ ((ValueType.string s : ValueType Double).doc fmt).strings, Plain s' := by
      rw [ValueType.doc]
      split_ifs
      · rw [Doc.strings]
        exact List.forall_mem_nil _
      · rwa [Doc.strings, List.forall_mem_singleton]
    rw [doc_echoRequest n hne]
    simp only [echoDoc, Doc.strings, Doc.stringsMembers, List.forall_mem_cons,
      List.forall_mem_append]
    have hnil : ∀ s' ∈ ([] : List (List UInt8)), Plain s' := List.forall_mem_nil _
    exact ⟨hid, hnil, hmethod, ⟨hecho, hnil⟩, hparams, ⟨htokenKey, ⟨htoken, hnil⟩, hecho, hstring,
      hnil⟩, hjsonrpc, ⟨hversion, hnil⟩, hnil⟩
  rw [Doc.readJson_write ⟨hplain, Request.tokens_doc _⟩] at hread
  split_ifs at hread with hvalid
  by_cases hnil : s = []
  · rw [hnil]
    rfl
  · exact hvalid.1 s (hmem hnil)

/-- A string comes back exactly if it is a plain text and not empty. -/
theorem Session.echoes_iff {server : Session Double} {token : List UInt8} (htoken : PlainText token)
    (hne : token ≠ []) (hknows : server.Knows token) (n : UInt64) (s : List UInt8) :
    server.Echoes fmt n token s ↔ s ≠ [] ∧ PlainText s := by
  constructor
  · rintro ⟨r, hr, hresult⟩
    cases hrequest : Request.parse fmt ((echoRequest n token s).toJsonString fmt) with
    | none =>
      rw [handleRequest, hrequest] at hr
      exact absurd hresult (not_parse_error hr _)
    | some req =>
      obtain ⟨s', hid, hmethod, htoken', hparams, hle, hnull⟩ :=
        parse_echoRequest htoken hne hrequest
      have hparam : req.params MethodEcho.echo = some (.string s') := by
        rw [hparams, setParam_self]
      rw [handleRequest_echo hknows hrequest hid hmethod htoken' hparam] at hr
      obtain ⟨-, hplain⟩ := parse_echoResponse hr hresult
      refine ⟨fun hnil => ?_, hplain hle, isUtf8_of_parse htoken.1 hne (hplain hle) hrequest⟩
      -- an empty string comes back as the word for a missing value
      rw [hnull hnil] at hr
      have hnullText : ascii "null" ≠ [] ∧ PlainText (ascii "null") := by decide
      obtain ⟨r', hr', hresult'⟩ := exists_parse_echoResponse n hnullText
      obtain rfl := Option.some.inj (hr.symm.trans hr')
      rw [hresult, hnil] at hresult'
      cases hresult'
  · rintro ⟨hnil, hs⟩
    have hrestorable : (echoRequest n token s : Request Double).Restorable fmt :=
      ⟨⟨n, rfl⟩, htoken, fun _ => ⟨0, Nat.succ_pos 1, by simp [echoRequest, setParam]⟩,
        accepts_echo ⟨hnil, hs⟩⟩
    obtain ⟨req, hrequest, hsame, -⟩ :=
      Request.parse_of_restorable hrestorable plainText_defaultVersion
    have hset : (echoRequest n token s : Request Double).params MethodEcho.echo =
        some (.string s) := by
      show setParam noParams MethodEcho.echo (.string s) MethodEcho.echo = some (.string s)
      exact setParam_self _ _ _
    have hparam : req.params MethodEcho.echo = some (.string s) :=
      hsame.params.eq_string (Nat.succ_pos 1) hset
    rw [Session.Echoes, handleRequest_echo hknows hrequest (hsame.id.symm.eq_size rfl) hsame.method
      hsame.token hparam]
    exact exists_parse_echoResponse n ⟨hnil, hs⟩

/-- Requests and responses are restored, and a string is echoed, exactly if the strings are plain
texts, none that is needed is missing, the ID is a number and a parameter follows the token. -/
theorem restored_and_echoed_iff (fmt : DoubleFormat Double) :
    (∀ r : Request Double,
      (r.RestoredWithVersion fmt ↔ r.Restorable fmt ∧ PlainText r.version) ∧
        (r.version = ascii "2.0" → (r.Restored fmt ↔ r.Restorable fmt))) ∧
    (∀ r : Response Double, r.error = none →
      (r.RestoredWithVersion fmt ↔ r.Restorable fmt ∧ PlainText r.version) ∧
        (r.version = ascii "2.0" → (r.Restored fmt ↔ r.Restorable fmt))) ∧
    ∀ (server : Session Double) (rand : List UInt8) (n : UInt64) (s : List UInt8),
      rand.length = tokenSize → server.Knows (generateToken rand) →
        (server.Echoes fmt n (generateToken rand) s ↔ s ≠ [] ∧ PlainText s) := by
  refine ⟨fun r => ⟨r.restoredWithVersion_iff, Request.restored_iff⟩,
    fun r he => ⟨Response.restoredWithVersion_iff he, Response.restored_iff he⟩, ?_⟩
  intro server rand n s hrand hknows
  exact Session.echoes_iff (plainText_generateToken rand) (generateToken_ne_nil hrand) hknows n s

/-! ### Examples -/

/-- The texts of zero, as a `double`. -/
def zeroFormat : DoubleFormat Unit where
  fixed2 _ := ascii "0.00"
  read s := if s = ascii "0.00" then some () else none
  fixed2_chars _ := by decide +kernel
  fixed2_of_read _ := by decide +kernel

/-- A server that has given out one token. -/
def exampleServer : Session Unit where
  tokens := [(generateToken (List.replicate 8 0), 100)]
  now := 160
  other _ _ r := r

theorem exampleServer_knows : exampleServer.Knows (generateToken (List.replicate 8 0)) := by
  show exampleServer.authenticate _ = none
  decide

theorem restored_and_echoed_hi :
    (echoRequest 1 (generateToken (List.replicate 8 0)) (ascii "hi") : Request Unit).Restored
        zeroFormat ∧
      (echoResponse 1 (ascii "hi") : Response Unit).Restored zeroFormat ∧
      exampleServer.Echoes zeroFormat 1 (generateToken (List.replicate 8 0)) (ascii "hi") := by
  have htoken : PlainText (generateToken (List.replicate 8 0)) := plainText_generateToken _
  refine ⟨(((restored_and_echoed_iff zeroFormat).1 _).2 rfl).mpr ?_,
    (((restored_and_echoed_iff zeroFormat).2.1 _ rfl).2 rfl).mpr ?_,
    ((restored_and_echoed_iff zeroFormat).2.2 exampleServer (List.replicate 8 0) 1 (ascii "hi")
      rfl exampleServer_knows).mpr (by decide)⟩
  · exact ⟨⟨1, rfl⟩, htoken, fun _ => ⟨0, Nat.succ_pos 1, by simp [echoRequest, setParam]⟩,
      accepts_echo (by decide)⟩
  · exact ⟨⟨1, rfl⟩, .echo, rfl, accepts_echo (by decide)⟩

/-- A quotation mark is not escaped, an empty string is written as the word for a missing value,
a string is no ID, and a comma follows the token where no parameter does. -/
theorem not_restored_quote :
    ¬ (echoRequest 1 (ascii "00") [quote] : Request Unit).Restored zeroFormat ∧
      ¬ (echoRequest 1 (ascii "00") [] : Request Unit).Restored zeroFormat ∧
      ¬ ({ id := .string (ascii "a"), method := .routerInfo } : Request Unit).Restored zeroFormat ∧
      ¬ ({ method := .routerInfo, token := ascii "00" } : Request Unit).Restored zeroFormat := by
  have hrestorable {r : Request Unit} (hversion : r.version = ascii "2.0")
      (h : r.Restored zeroFormat) : r.Restorable zeroFormat := by
    obtain ⟨r', hr', hsame⟩ := h
    exact (Request.restorable_of_parse hr' hsame (.inr hversion)).1
  have hecho {s : List UInt8} (h : (echoRequest 1 (ascii "00") s : Request Unit).Restored
      zeroFormat) : s ≠ [] ∧ PlainText s := by
    obtain ⟨k, hk, hfits⟩ := (hrestorable rfl h).params.1 0 (Nat.succ_pos 1) (.string s)
      (by simp [echoRequest, setParam])
    obtain rfl : Kind.string = k := Option.some.inj hk
    obtain ⟨s', heq, hs'⟩ := hfits
    rwa [ValueType.string.inj heq]
  refine ⟨fun h => ?_, fun h => (hecho h).1 rfl, fun h => ?_, fun h => ?_⟩
  · exact absurd (hecho h).2 (by decide)
  · obtain ⟨n, hn⟩ := (hrestorable rfl h).id
    cases hn
  · obtain ⟨key, -, hset⟩ := (hrestorable rfl h).separator (by decide)
    exact hset rfl

end I2PControl
