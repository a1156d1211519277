import LinkedProof.CommandLine.Sign
import LinkedProof.Proofs.CommandLine.ExitStatus
import LinkedProof.Proofs.Json.Settled
import LinkedProof.Proofs.LocalSigning

/-! The file that signing leaves. Its text is read back as the document that was signed, and a check
of the file under the exported key finds one valid proof, so nothing that lies between the two
commands stands in the way: neither the layout of the text, nor the bytes of the file, nor the way
in which the key is named. -/
namespace LinkedProof

open Json (Settled HoldsBroken Broken)

namespace ProofRequest

variable {σ : Type} {r : ProofRequest σ} {created value : Text}

private theorem options_text {method : Text} (named : r.method = .text method) :
    ∀ m ∈ (r.options created).set r.representation.key (.text value), ∃ t, m.2 = .text t := by
  intro m member
  rcases Members.mem_set member with rfl | before
  · exact ⟨value, rfl⟩
  · simp only [options, named, List.mem_cons, List.not_mem_nil, or_false] at before
    rcases before with rfl | rfl | rfl | rfl <;> exact ⟨_, rfl⟩

/-- A proof holds texts alone, under distinct names. -/
theorem settled_made {method : Text} {room : Nat} (named : r.method = .text method) :
    Settled (room + 1) (.object ((r.options created).set r.representation.key (.text value))) := by
  have distinct : Members.Distinct (r.options created) := by
    have names : (r.options created).keys = ["type", "created", "verificationMethod",
      "proofPurpose"] := rfl
    rw [Members.Distinct, names]
    decide
  refine .object distinct.set fun m member => ?_
  obtain ⟨t, text⟩ := options_text named m member
  rw [text]
  exact .text t

/-- What is said about a proof that was made can be said in bytes. -/
theorem clear_options {c : Canonicalizer} {bytes : Bytes}
    (written : Document.canonicalize c (r.options created) none = .ok bytes) :
    ¬HoldsBroken (.object (r.options created)) := by
  have whole : Document.signed c.chain (r.options created) none = r.options created := rfl
  rw [Document.canonicalize, whole] at written
  exact (Document.serialize_ok.mp written).1.1

section Rooms

variable {d d' : Document} {c : Canonicalizer} {now : Timestamp} {u u' : σ}

private theorem depth_options (named : ∃ m, Method.ofValue r.method = .ok m) (created : Text) :
    (Json.object (r.options created)).depth ≤ 1 := by
  have method : r.method.depth = 0 := by
    obtain ⟨m, named⟩ := named
    cases shape : r.method with
    | text t => rfl
    | _ =>
      rw [shape] at named
      cases named
  refine Json.depth_object_le.mpr fun m member => ?_
  simp only [options, List.mem_cons, List.not_mem_nil, or_false] at member
  rcases member with rfl | rfl | rfl | rfl
  · exact Nat.le_refl _
  · exact Nat.le_refl _
  · exact Nat.le_of_eq method
  · exact Nat.le_refl _

def canonicalizing (r : ProofRequest σ) (c : Canonicalizer) : ProofRequest σ :=
  { r with suite := { r.suite with canonicalizer := c } }

/-- A signing ends as well with other room, if there is enough of it for the document. -/
theorem attach_within (attached : (Document.attach now r (.object d)).Ends u (.ok d') u')
    (chain : c.chain = r.suite.canonicalizer.chain) (enough : (Json.object d).depth ≤ c.room) :
    (Document.attach now (r.canonicalizing c) (.object d)).Ends u (.ok d') u' := by
  obtain ⟨e, options, payload, value, prepared, signed, rfl⟩ := attach_ok.mp attached
  obtain ⟨signer, method, named, shape, whole, ⟨created, written, rfl⟩, data⟩ :=
    prepare_ok.mp prepared
  obtain rfl := Json.object.inj shape
  obtain ⟨x, y, optionBytes, documentBytes, joined⟩ := Suite.verifyData_ok.mp data
  have roomy : (Json.object (r.options created)).depth ≤ c.room :=
    Nat.le_trans (depth_options named created) (Nat.le_of_lt c.room.property)
  have data : (r.canonicalizing c).suite.verifyData d (r.options created)
      (some d.proofs.length) = .ok payload :=
    Suite.verifyData_ok.mpr ⟨x, y, Document.canonicalize_roomy chain roomy optionBytes,
      Document.canonicalize_roomy chain enough documentBytes, joined⟩
  exact attach_ok.mpr ⟨d, r.options created, payload, value,
    prepare_ok.mpr ⟨signer, method, named, rfl, whole, ⟨created, written, rfl⟩, data⟩, signed, rfl⟩

end Rooms

end ProofRequest

theorem SuiteTable.get?_ofSuites {σ : Type} {suites : List (Suite σ)} {suite : Suite σ}
    (listed : suite ∈ suites) :
    ∃ found ∈ suites, (ofSuites suites).get? suite.type = some found := by
  rw [get?, ofSuites, ← List.map_reverse]
  cases first : (suites.reverse.map fun s => (s.type, s)).find? (·.1 = suite.type) with
  | none =>
    have member := List.mem_map_of_mem (f := fun s : Suite σ => (s.type, s))
      (List.mem_reverse.mpr listed)
    exact absurd (decide_eq_true rfl) (List.find?_eq_none.mp first _ member)
  | some entry =>
    obtain ⟨found, member, rfl⟩ := List.mem_map.mp (List.mem_of_find?_eq_some first)
    exact ⟨found, List.mem_reverse.mp member, rfl⟩

namespace CommandLine

section Signing

variable {σ : Type} {s : Surroundings σ} {settings : Settings} {o : SignOptions} {st : σ}
  {d d' : Document} {p : Path} {files files' : Files} {t : Text}

/-- How a document came about that the command delivers: an object was loaded, a signer was made of
the file of the key, and a proof was attached at once. -/
inductive Signed (s : Surroundings σ) (settings : Settings) (o : SignOptions) (st : σ)
    (d d' : Document) : Prop
  | intro {between after : σ} {pem : Bytes} {signer : LocalSigner} {request : ProofRequest σ}
    (loaded : (Source.load s settings.httpTimeout o.source).run.run st =
      (.ok (.object d), between))
    (read : s.files.read o.key = .ok pem)
    (made : LocalSigner.ofPem s.wording s.table pem none .null = .ok signer)
    (type : request.type = o.type)
    (signs : request.suite.signer = some (signer.toSigner s.primitive))
    (digest : request.suite.digest = Digest.sha256)
    (chain : request.suite.canonicalizer.chain = false)
    (method : request.method = .text o.method)
    (attached : (Document.attach s.now request (.object d)).Ends between (.ok d') after) :
    Signed s settings o st d d'

private theorem run_bind_ok {ε α β : Type} {a : ExceptT ε (StateM σ) α}
    {f : α → ExceptT ε (StateM σ) β} {result : β} (ended : ((a >>= f).run.run st).1 = .ok result) :
    ∃ value between, a.run.run st = (.ok value, between) ∧
      ((f value).run.run between).1 = .ok result := by
  rw [run_bind] at ended
  cases first : a.run.run st with
  | mk r between =>
    rw [first] at ended
    cases r with
    | error fault => cases ended
    | ok value => exact ⟨value, between, rfl, ended⟩

private theorem lifted_ok {α : Type} {a : Action σ α} {value : α} {between : σ}
    (ended : (ExceptT.mk ((·.mapError CommandFault.failure) <$> a.run) :
      ExceptT CommandFault (StateM σ) α).run.run st = (.ok value, between)) :
    a.Ends st (.ok value) between := by
  obtain ⟨first, second⟩ := Prod.mk.inj ended
  exact Prod.ext (mapError_ok.mp first) second

theorem signed_ok (ended : ((signed s settings o).run.run st).1 = .ok d') :
    ∃ d, Signed s settings o st d d' := by
  obtain ⟨document, between, loaded, ended⟩ := run_bind_ok ended
  obtain ⟨signer, u, lifted, ended⟩ := run_bind_ok ended
  obtain ⟨fromFile, rfl⟩ := Action.ends_ofOutcome.mp (lifted_ok lifted)
  obtain ⟨pem, read, made⟩ := Outcome.bind_ok.mp fromFile
  have attached := lifted_ok (Prod.ext ended rfl)
  obtain ⟨d, _, _, _, prepared, _⟩ := ProofRequest.attach_ok.mp attached
  obtain ⟨_, _, _, rfl, _⟩ := ProofRequest.prepare_ok.mp prepared
  exact ⟨d, .intro loaded read made rfl rfl rfl rfl rfl attached⟩

theorem Signed.source (signed : Signed s settings o st d d') : ∃ between,
    (Source.load s settings.httpTimeout o.source).run.run st = (.ok (.object d), between) := by
  obtain ⟨loaded, _⟩ := signed
  exact ⟨_, loaded⟩

/-- One proof was added, which was made of the options of the run. -/
theorem Signed.made (signed : Signed s settings o st d d') :
    ∃ (request : ProofRequest σ) (proof : Members), request.Made d d.proofs.length proof ∧
      d' = d.addProof proof ∧ request.type = o.type ∧ request.method = .text o.method ∧
      request.suite.canonicalizer.chain = false := by
  obtain ⟨_, _, _, type, _, _, chain, method, attached⟩ := signed
  obtain ⟨proof, added, made⟩ := ProofRequest.attach_made attached
  exact ⟨_, proof, made, added, type, method, chain⟩

/-- The first proof of a document comes behind its other members. -/
theorem Signed.addProof (signed : Signed s settings o st d d')
    (missing : d.get? Document.proofKey = none) : ∃ proof,
      d' = d.set Document.proofKey (.object proof) ∧
        ∀ room, Settled (room + 1) (.object proof) := by
  obtain ⟨_, _, ⟨_, _, _⟩, rfl, _, method, _⟩ := signed.made
  exact ⟨_, Document.addProof_missing missing _, fun room => ProofRequest.settled_made method⟩

/-- The document with its proof can be written, and read again where there is room for it. -/
theorem Signed.settled {room : Nat} (signed : Signed s settings o st d d')
    (missing : d.get? Document.proofKey = none) (enough : (Json.object d').depth ≤ room) :
    Settled room (.object d') := by
  obtain ⟨_, loaded⟩ := signed.source
  obtain ⟨place, settled⟩ := load_settled loaded
  obtain ⟨proof, rfl, made⟩ := signed.addProof missing
  obtain ⟨n, two⟩ := Nat.exists_eq_add_of_le' (s.room place).property
  rw [two] at settled
  exact (settled.set (made n)).rebudget enough

/-- The type and the method of a proof can be said in bytes. -/
theorem Signed.clear (signed : Signed s settings o st d d') :
    ¬Broken o.type ∧ ¬Broken o.method := by
  obtain ⟨request, _, @⟨_, created, _, _, _, _, _, data, _⟩, _, type, method, _⟩ := signed.made
  obtain ⟨_, _, optionBytes, _⟩ := Suite.verifyData_ok.mp data
  have clear := ProofRequest.clear_options optionBytes
  have held (m : Text × Json) (member : m ∈ request.options created) : ¬HoldsBroken m.2 :=
    fun broken => clear (.value member broken)
  rw [← type]
  refine ⟨fun broken => ?_, fun broken => ?_⟩
  · exact held _ List.mem_cons_self (.text broken)
  · refine held ("verificationMethod", request.method) (by simp [ProofRequest.options]) ?_
    rw [method]
    exact .text broken

/-- A proof names its method in two parts. -/
theorem Signed.method (signed : Signed s settings o st d d') :
    ∃ m, Method.ofText o.method = .ok m := by
  obtain ⟨_, _, ⟨named, _, _⟩, _, _, method, _⟩ := signed.made
  rw [method] at named
  exact ⟨_, named⟩

end Signing

section Checking

variable {σ τ : Type} {s : Surroundings σ} {s' : Surroundings τ} {settings settings' : Settings}
  {o : SignOptions} {v : VerifyOptions} {st : σ} {st' : τ} {d d' : Document} {p : Path} {m : Method}

/-- A later check of a file with a signed document. It finds the table and the raw operations that
signing had, the file as signing left it with room to read and to canonicalize the document, and in
another file the exported key, under any name, which an option names for the fragment of the method.
The type of the proof is asked for, unless it is one of those that are known. -/
structure Rechecks (s : Surroundings σ) (o : SignOptions) (left : Files) (p : Path) (d' : Document)
    (m : Method) (s' : Surroundings τ) (v : VerifyOptions) : Prop where
  table : s'.table = s.table
  primitive : s'.primitive = s.primitive
  kept : s'.files.read p = left.read p
  source : NamesFile v.source p
  readable : (Json.object d').depth ≤ s'.room .file
  checkable : (Json.object d').depth ≤ s'.room .canonical
  type : o.type ∈ knownTypes ++ v.types
  key : ∃ pem kid signer file, s.files.read o.key = .ok pem ∧
    LocalSigner.ofPem s.wording s.table pem none kid = .ok signer ∧ file ≠ [] ∧
    v.keys = [m.keyId ++ CodePoint.ofChar '=' :: file] ∧
    HoldsValue (s'.room .keyFile) s'.files (Path.ofText file) (.object signer.jwk.toMembers)

/-- Every type that is known or asked for has a suite with the local verifier. -/
theorem suites_get? {ρ : Type} {type : Text} {types : List Text}
    (known : type ∈ knownTypes ++ types) : ∃ suite : Suite ρ,
      (suites s types).get? type = some suite ∧
      suite.digest = Digest.sha256 ∧ suite.canonicalizer = ⟨false, s.room .canonical⟩ ∧
      suite.verifier = LocalVerifier.toVerifier s.primitive s.table := by
  have listed := List.mem_map_of_mem (f := fun type => (⟨type, none,
    LocalVerifier.toVerifier s.primitive s.table, ⟨false, s.room .canonical⟩, s.room .header,
    Digest.sha256⟩ : Suite ρ)) known
  obtain ⟨suite, member, found⟩ := SuiteTable.get?_ofSuites listed
  obtain ⟨_, _, rfl⟩ := List.mem_map.mp member
  exact ⟨_, found, rfl, rfl, rfl⟩

/-- The key of a table with one entry for a fragment is found for every method with the fragment. -/
theorem resolve_fragment {key : PublicKey} (proper : key.IsKey) {t : Text}
    (named : Method.ofText t = .ok m) :
    KeyTable.resolve [(m.keyId, key)] m.issuer m.keyId = .ok key := by
  have distinct : ([(m.keyId, key)].map Prod.fst).Nodup := List.nodup_singleton m.keyId
  refine ((KeyTable.tracks_self distinct).resolve_iff ?_).mpr (.fragment ?_ ⟨[], [], rfl, nofun⟩)
  · exact List.forall_mem_singleton.mpr proper
  · exact List.forall_mem_singleton.mpr (Method.keyId_ne_text named)

def reread (signer : LocalSigner) : PublicKey :=
  .jwk (Jwk.ofMembers signer.jwk.toMembers) PublicKey.defaultType

def fragmentFetcher {ρ : Type} (m : Method) (signer : LocalSigner) : Fetcher ρ :=
  KeyTable.fetcher [(m.keyId, reread signer)]

/-- The option gives the exported key for the fragment. -/
theorem keyed_fragment {file : Text} {signer : LocalSigner} (settings' : Settings)
    (clear : CodePoint.ofChar '=' ∉ m.fragment) (placed : file ≠ [])
    (named : v.keys = [m.keyId ++ CodePoint.ofChar '=' :: file])
    (held : HoldsValue (s'.room .keyFile) s'.files (Path.ofText file)
      (.object signer.jwk.toMembers)) : Keyed s' settings' v (.ok (fragmentFetcher m signer)) := by
  have mark : CodePoint.ofChar '=' ∉ m.keyId := by
    have other : CodePoint.ofChar '=' ≠ CodePoint.ofChar '#' := by decide
    exact List.not_mem_cons_of_ne_of_not_mem other clear
  have option : Source.keyOption (s'.room .keyFile) s'.files
      (m.keyId ++ CodePoint.ofChar '=' :: file) = _ :=
    keyOption_ok (List.cons_ne_nil _ _) mark placed held
  rw [Keyed, fetcher, named, List.isEmpty_cons, if_neg Bool.false_ne_true, Source.keyTable,
    List.mapM_cons, option]
  rfl

/-- A later check trusts a proof that the signer made, under the exported key with any name. -/
theorem trusted_fragment {ρ : Type} {request : ProofRequest σ} {key : PrivateKey} {e : CurveEntry}
    {kid : Json} {types : List Text} (binds : CurveTable.initial.Binds e key.curve)
    (consistent : s'.primitive.Consistent) (initial : s'.table = .initial)
    (signs : request.suite.signer =
      some ((LocalSigner.ofEntry key e .null).toSigner s'.primitive))
    (digest : request.suite.digest = Digest.sha256)
    (canonicalizer : request.suite.canonicalizer = ⟨false, s'.room .canonical⟩)
    (method : request.method = .text o.method) (known : request.type ∈ knownTypes ++ types)
    (named : Method.ofText o.method = .ok m) :
    (⟨request, reread (LocalSigner.ofEntry key e kid)⟩ : Signing σ).Trusted
      (fragmentFetcher m (LocalSigner.ofEntry key e kid) : Fetcher ρ) (suites s' types) := by
  obtain ⟨suite, listed, digest', canonicalizer', verifier⟩ := suites_get? known
  have same := canonicalizer'.trans canonicalizer.symm
  have registered : ∃ suite : Suite ρ, (suites s' types).get? request.type = some suite ∧
      suite.digest = request.suite.digest ∧
      suite.canonicalizer.chain = request.suite.canonicalizer.chain ∧
      request.suite.canonicalizer.room ≤ suite.canonicalizer.room ∧
      suite.verifier = LocalVerifier.toVerifier s'.primitive .initial :=
    ⟨suite, listed, digest'.trans digest.symm, congrArg _ same, by rw [same], initial ▸ verifier⟩
  refine Signing.trusted_local binds consistent signs registered ?_
    ((LocalSigner.Shows.reread PublicKey.defaultType).point binds) rfl
  intro method' named' t
  rw [method] at named'
  obtain rfl := Except.ok.inj (named.symm.trans named')
  exact ⟨t, Action.ends_ofOutcome.mpr ⟨resolve_fragment trivial named, rfl⟩⟩

/-- The checks of a document with its first proof come to the verdict on it alone, whatever workers
there are for them. -/
theorem shared_sole {ρ : Type} {x : Signing σ} {fetch : Fetcher ρ} {suites : SuiteTable ρ}
    (missing : d.get? Document.proofKey = none) (attached : Signing.Attached d [x] d')
    (trusted : x.Trusted fetch suites) (workers : Nat) (schedule : List Nat) (t : ρ) :
    ∃ u, (Verification.shared .initial fetch suites workers schedule (.object d')).Ends t
      (.ok [x.verdict 0]) u := by
  obtain ⟨r, u, ended⟩ := Action.ends_some
    (Verification.shared .initial fetch suites workers schedule (.object d')) t
  obtain ⟨steps, called⟩ := Verification.Called.of_shared ended
  have valid := Signing.called_made (Document.proofs_of_missing missing) attached
    (List.forall_mem_singleton.mpr trusted) called
  exact ⟨u, valid ▸ ended⟩

private theorem Signed.depth_le (signed : Signed s settings o st d d')
    (missing : d.get? Document.proofKey = none) :
    (Json.object d).depth ≤ (Json.object d').depth := by
  obtain ⟨proof, rfl, _⟩ := signed.addProof missing
  exact Json.depth_members_subset (Members.subset_set missing _)

/-- A later check comes to one verdict with nothing against the proof. -/
theorem Signed.judged (signed : Signed s settings o st d d') (initial : s.table = .initial)
    (consistent : s.primitive.Consistent) (missing : d.get? Document.proofKey = none)
    (named : Method.ofText o.method = .ok m) (clear : CodePoint.ofChar '=' ∉ m.fragment)
    {left : Files} (held : HoldsValue (s'.room .file) left p (.object d'))
    (rechecks : Rechecks s o left p d' m s' v) :
    Judged s' settings' v st' [⟨0, o.type, o.method, true, none⟩] := by
  have shallow := signed.depth_le missing
  obtain @⟨_, _, _, _, request, _, read, made, type, signs, digest, chain, method, attached⟩ :=
    signed
  obtain ⟨table, primitive, kept, source, _, checkable, known, pem', kid, signer', file, read',
    made', placed, keys, exported⟩ := rechecks
  obtain rfl := Except.ok.inj (read.symm.trans read')
  rw [initial] at made made' table
  -- The two signers are of one file, so they differ in nothing but the name of the exported key.
  obtain ⟨key, e, found, binds, rfl⟩ := LocalSigner.ofPem_initial made
  obtain ⟨key', e', found', binds', rfl⟩ := LocalSigner.ofPem_initial made'
  obtain rfl := KeyFile.Loaded.curveKey.inj (Except.ok.inj (found.symm.trans found'))
  obtain rfl := Except.ok.inj (binds.byCurve.symm.trans binds'.byCurve)
  have loads : Loads s' settings' v st' (.ok (.object d')) st' :=
    load_value source (by rwa [HoldsValue, kept])
  have keyed := keyed_fragment settings' clear placed keys exported
  rw [← primitive] at consistent signs
  rw [← type] at known
  -- The check canonicalizes with room of its own, as if signing had had it.
  have attached := ProofRequest.attach_within attached
    (c := ⟨false, s'.room .canonical⟩) chain.symm (Nat.le_trans shallow checkable)
  have trusted : (⟨request.canonicalizing ⟨false, s'.room .canonical⟩,
      reread (LocalSigner.ofEntry key e kid)⟩ : Signing σ).Trusted
      (fragmentFetcher m (LocalSigner.ofEntry key e kid) : Fetcher (Did.Cache × τ))
      (suites s' v.types) :=
    trusted_fragment binds consistent table signs digest rfl method known named
  obtain ⟨after, checks⟩ := shared_sole missing (.more .none attached) trusted settings'.workers
    s'.schedule ([], st')
  have sole : Signing.verdict ⟨request.canonicalizing ⟨false, s'.room .canonical⟩,
      reread (LocalSigner.ofEntry key e kid)⟩ 0 = ⟨0, o.type, o.method, true, none⟩ := by
    rw [Signing.verdict, ← type]
    exact congrArg (fun m => Verdict.mk 0 request.type ((Json.text? m).getD []) true none) method
  rw [sole, ← table] at checks
  exact ⟨_, _, _, _, loads, keyed, checks⟩

end Checking

section Desk

open LocalSigner (unitKey ofEntry)

def page (v : Json) : Bytes :=
  (v.render .pretty ++ Text.ofString "\n").flatMap Utf8.encodePoint

def desk : Surroundings Unit :=
  { piped [] with
    primitive := Primitive.deterministic.checked
    now := Signing.newYear
    files := [(["doc"], .file ⟨page (.object Signing.unsigned), Files.newMode⟩),
      (["key"], .file ⟨Bytes.ofCodes (KeyFile.write unitKey), Files.newMode⟩)] }

def sealing : SignOptions where
  source := "doc"
  key := Path.ofText "key"
  method := "did:ex:1#k"
  type := Suite.defaultType
  purpose := none
  representation := some .proofValue
  timeFormat := some .wholeSeconds
  output := some (Path.ofText "signed")

private theorem sealed : ((sign desk .standard sealing).run ()).1.ending.code = 0 := by
  decide +kernel

end Desk

end CommandLine

end LinkedProof
