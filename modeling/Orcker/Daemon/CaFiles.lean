import Orcker.Base.InPlace
import Orcker.Tls.Authority

/-!
# The authority on disk

The daemon keeps its certificate authority in two files. A run may stop anywhere, and the next one
starts from what it left.
-/

namespace Orcker.Daemon.Ca

open List

open Base hiding Fate
open Base.InPlace Prog Orcker.Tls

inductive DaemonError where
  | io (path : Str) (source : IoError)
  | tls (e : TlsError)
  | validity
  deriving DecidableEq

/-! ## Loading and making the authority -/

/-- Nobody else reads it. -/
def restrictToOwner (path : Str) : Prog (Except IoError Unit) := chmod path 0o600

/-- Only the owner writes it. -/
def restrictWritesToOwner (path : Str) : Prog (Except IoError Unit) := chmod path 0o644

def readToString (path : Str) : Prog (Except IoError Str) := do
  match ← read path with
  | .error e => return .error e
  | .ok data =>
    match fromUtf8 data with
    | some text => return .ok text
    | none => return .error (.other "stream did not contain valid UTF-8")

/-- Go on with what the operation answered, or return its error. -/
def tryIo {β γ : Type} (path : Str) (op : Prog (Except IoError β))
    (next : β → Prog (Except DaemonError γ)) : Prog (Except DaemonError γ) := do
  match ← op with
  | .error e => return .error (.io path e)
  | .ok b => next b

def caPemPath (data : Str) : Str := data ++ "/ca.cert.pem"

def caKeyPath (data : Str) : Str := data ++ "/ca.key.pem"

/-- Both files are there. -/
def caFilesExist (data : Str) : Prog Bool := do
  if ← isThere (caPemPath data) then isThere (caKeyPath data) else return false

variable {Key : Type}

/-- Both files, after their modes have been set. -/
def loadCa (crates : Crates Key) (data : Str) : Prog (Except DaemonError (CertAuthority Key)) :=
  tryIo (caPemPath data) (restrictWritesToOwner (caPemPath data)) fun _ =>
  tryIo (caKeyPath data) (restrictToOwner (caKeyPath data)) fun _ =>
  tryIo (caPemPath data) (readToString (caPemPath data)) fun certPem =>
  tryIo (caKeyPath data) (readToString (caKeyPath data)) fun keyPem =>
  return (CertAuthority.fromPem crates certPem keyPem).mapError .tls

/-- In place, the certificate first. -/
def saveCa (data : Str) (ca : CertAuthority Key) : Prog (Except DaemonError (CertAuthority Key)) :=
  tryIo data (createDirAll data) fun _ =>
  tryIo (caPemPath data) (write (caPemPath data) (utf8 ca.certPem)) fun _ =>
  tryIo (caKeyPath data) (write (caKeyPath data) (utf8 ca.keyPem)) fun _ =>
  tryIo (caKeyPath data) (restrictToOwner (caKeyPath data)) fun _ =>
  tryIo (caPemPath data) (restrictWritesToOwner (caPemPath data)) fun _ =>
  return .ok ca

/-- `fresh` is what generating an authority gives in this run. -/
def generateCa (data : Str) (fresh : Except DaemonError (CertAuthority Key)) :
    Prog (Except DaemonError (CertAuthority Key)) :=
  match fresh with
  | .error e => return .error e
  | .ok ca => saveCa data ca

/-- If both files are there they are read back. -/
def loadOrGenerateCa (crates : Crates Key) (data : Str)
    (fresh : Except DaemonError (CertAuthority Key)) :
    Prog (Except DaemonError (CertAuthority Key)) := do
  if ← caFilesExist data then loadCa crates data else generateCa data fresh

/-! ## Runs -/

/-- One start of the daemon: what it would make, and what becomes of each of its operations. -/
structure CaRun (Key : Type) where
  umask : Mode
  fresh : Except DaemonError (CertAuthority Key)
  fates : List Fate

/-- A run that generates `ca`, should it have to, and is not stopped. -/
def CaRun.uninterrupted (umask : Mode) (ca : CertAuthority Key) : CaRun Key := ⟨umask, .ok ca, []⟩

def CaRun.on (crates : Crates Key) (data : Str) (r : CaRun Key) (t : Files) :
    Run (Except DaemonError (CertAuthority Key)) :=
  (loadOrGenerateCa crates data r.fresh).run r.umask r.fates t

/-- The files after some runs. -/
def afterRuns (crates : Crates Key) (data : Str) : List (CaRun Key) → Files → Files
  | [], t => t
  | r :: rs, t => afterRuns crates data rs ((r.on crates data t).left t)

/-- The files at every instant of some runs. -/
def runInstants (crates : Crates Key) (data : Str) : List (CaRun Key) → Files → List Files
  | [], t => [t]
  | r :: rs, t =>
    t :: (r.on crates data t).passed ++
      runInstants crates data rs ((r.on crates data t).left t)

/-! ## What is to hold -/

/-- Neither the group nor others may read. -/
def OwnerReads (mode : Mode) : Prop := mode &&& 0o044 = 0

instance (mode : Mode) : Decidable (OwnerReads mode) := inferInstanceAs (Decidable (_ = _))

/-- If there are bytes of a key, only the owner may read them. -/
def KeySecret (data : Str) (t : Files) : Prop :=
  ∀ f, t[caKeyPath data]? = some f → f.data ≠ [] → OwnerReads f.mode

/-- The texts of a generated authority are read back as that authority. -/
def ReadsBack (crates : Crates Key) (ca : CertAuthority Key) : Prop :=
  CertAuthority.fromPem crates ca.certPem ca.keyPem = .ok ca

/-- The umask keeps group and others from reading new files. -/
def CaRun.Masks (r : CaRun Key) : Prop := r.umask &&& 0o044 = 0o044

/-- Not a write of the key that ends before all its bytes are in the file. -/
def KeyWhole (data : Str) : Op → Fate → Prop
  | .write path text, fate => path = caKeyPath data → ∀ n ∈ fate.written text, text.length ≤ n
  | _, _ => True

instance (data : Str) (op : Op) (fate : Fate) : Decidable (KeyWhole data op fate) :=
  match op with
  | .write path text =>
    inferInstanceAs (Decidable (path = caKeyPath data → ∀ n ∈ fate.written text, text.length ≤ n))
  | .isThere _ | .read _ | .createDirAll _ | .chmod _ _ => .isTrue trivial

/-- Every run masks, and none stops or fails inside the write of the key. -/
def Careful (crates : Crates Key) (data : Str) : List (CaRun Key) → Files → Prop
  | [], _ => True
  | r :: rs, t => r.Masks ∧ (∀ c ∈ (r.on crates data t).calls, KeyWhole data c.1 c.2) ∧
    Careful crates data rs ((r.on crates data t).left t)

/-- Both files are the authority's. -/
structure Kept (crates : Crates Key) (data : Str) (ca : CertAuthority Key) (t : Files) : Prop where
  cert : ∃ mode, t[caPemPath data]? = some ⟨utf8 ca.certPem, mode⟩
  key : ∃ mode, t[caKeyPath data]? = some ⟨utf8 ca.keyPem, mode⟩
  reads : ReadsBack crates ca

/-- Either no key was written yet, or the files hold an authority. -/
def Settled (crates : Crates Key) (data : Str) (t : Files) : Prop :=
  caKeyPath data ∉ t ∨ ∃ ca, Kept crates data ca t

variable {β : Type} {path : Str} {fresh : Except DaemonError (CertAuthority Key)} {r : CaRun Key}

section

variable {crates : Crates Key} {data : Str} {t : Files} {ca : CertAuthority Key}

theorem caPemPath_ne_caKeyPath (data : Str) : caPemPath data ≠ caKeyPath data := by
  intro h
  have := append_cancel_left h
  revert this
  decide

theorem ownerReads_of_masks {umask : Mode} (h : umask &&& 0o044 = 0o044) :
    OwnerReads (0o666 &&& ~~~umask) := by
  have hall : ∀ m : BitVec 9, m &&& 0o044 = 0o044 → (0o666 &&& ~~~m) &&& 0o044 = 0 := by
    decide +kernel
  exact hall umask h

theorem ownerReads_private : OwnerReads 0o600 := by decide

/-! ## Changes of one file -/

theorem Kept.insert_cert (h : Kept crates data ca t) (mode : Mode) :
    Kept crates data ca (t.insert (caPemPath data) ⟨utf8 ca.certPem, mode⟩) where
  cert := ⟨mode, by rw [OrdMap.getElem?_insert, if_pos rfl]⟩
  key := by
    obtain ⟨m, hm⟩ := h.key
    exact ⟨m, by rw [OrdMap.getElem?_insert, if_neg (caPemPath_ne_caKeyPath data).symm, hm]⟩
  reads := h.reads

theorem Kept.insert_key (h : Kept crates data ca t) (mode : Mode) :
    Kept crates data ca (t.insert (caKeyPath data) ⟨utf8 ca.keyPem, mode⟩) where
  cert := by
    obtain ⟨m, hm⟩ := h.cert
    exact ⟨m, by rw [OrdMap.getElem?_insert, if_neg (caPemPath_ne_caKeyPath data), hm]⟩
  key := ⟨mode, by rw [OrdMap.getElem?_insert, if_pos rfl]⟩
  reads := h.reads

theorem kept_fill_key (umask : Mode)
    (hcert : ∃ mode, t[caPemPath data]? = some ⟨utf8 ca.certPem, mode⟩)
    (hreads : ReadsBack crates ca) :
    Kept crates data ca (fill umask t (caKeyPath data) (utf8 ca.keyPem)) where
  cert := by
    obtain ⟨mode, hmode⟩ := hcert
    exact ⟨mode, by rw [getElem?_fill, if_neg (caPemPath_ne_caKeyPath data), hmode]⟩
  key := ⟨_, by rw [getElem?_fill, if_pos rfl]⟩
  reads := hreads

theorem KeySecret.insert_cert (h : KeySecret data t) (f : File) :
    KeySecret data (t.insert (caPemPath data) f) := by
  intro g hg
  rw [OrdMap.getElem?_insert, if_neg (caPemPath_ne_caKeyPath data).symm] at hg
  exact h g hg

theorem keySecret_insert_key {f : File} (h : OwnerReads f.mode) :
    KeySecret data (t.insert (caKeyPath data) f) := by
  intro g hg _
  rw [OrdMap.getElem?_insert, if_pos rfl] at hg
  exact Option.some.inj hg ▸ h

/-! ## Along a run -/

variable {umask : Mode} {clean : Prop}

/-- How operations may go; in a `clean` run every one succeeds. -/
def Allowed (data : Str) (clean : Prop) (op : Op) (fate : Fate) : Prop :=
  KeyWhole data op fate ∧ (clean → fate = .done)

/-- `S` is left in any case, `T` of an authority that is returned, and a `clean` run returns
one. -/
def Ends (S : Files → Prop) (T : CertAuthority Key → Files → Prop) (clean : Prop)
    (r : Option (Except DaemonError (CertAuthority Key))) (u : Files) : Prop :=
  S u ∧ (∀ x, r = some (.ok x) → T x u) ∧ (clean → ∃ x, r = some (.ok x))

section

variable {ok : Op → Fate → Prop} {G : Files → Prop}

/-- What is to hold after an operation, for `Q` to hold after `tryIo`. -/
def Onward {β γ : Type} (umask : Mode) (ok : Op → Fate → Prop) (G : Files → Prop)
    (Q : Option (Except DaemonError γ) → Files → Prop) (path : Str)
    (next : β → Prog (Except DaemonError γ)) : Option (Except IoError β) → Files → Prop
  | none, u => Q none u
  | some (.error e), u => Q (some (.error (.io path e))) u
  | some (.ok b), u => Along umask ok G Q (next b) u

theorem along_tryIo {γ : Type} {Q : Option (Except DaemonError γ) → Files → Prop}
    {op : Prog (Except IoError β)} {next : β → Prog (Except DaemonError γ)}
    (h : Along umask ok G (Onward umask ok G Q path next) op t) :
    Along umask ok G Q (tryIo path op next) t := by
  refine Along.bind (h.mono fun r u hr => ?_)
  match r, hr with
  | none, hr => exact hr
  | some (.error e), hr => exact hr
  | some (.ok b), hr => exact hr

theorem onward_pure {γ : Type} {Q : Option (Except DaemonError γ) → Files → Prop}
    {last : β → Except DaemonError γ} {b : β} (h : Q (some (last b)) t) :
    Onward umask ok G Q path (fun b => pure (last b)) (some (.ok b)) t := h

theorem along_readToString {Q : Option (Except IoError Str) → Files → Prop} {text : Str}
    {mode : Mode} (hfile : t[path]? = some ⟨utf8 text, mode⟩) (hbad : Bad ok Q (.read path) t)
    (hdone : Q (some (.ok text)) t) : Along umask ok G Q (readToString path) t := by
  refine Along.bind (along_read hfile (fun fate hfate hne => ?_) ?_)
  · exact hbad fate hfate hne
  · show Along umask ok G Q (match fromUtf8 (utf8 text) with
      | some text => return .ok text
      | none => return .error (.other "stream did not contain valid UTF-8")) t
    rw [fromUtf8_eq_some_iff.2 rfl]
    exact hdone

end

theorem bad_of_left {G S : Files → Prop} {T : CertAuthority Key → Files → Prop} {op : Op}
    {next : β → Prog (Except DaemonError (CertAuthority Key))} (hS : S t) :
    Bad (Allowed data clean)
      (Onward umask (Allowed data clean) G (Ends S T clean) path next) op t := by
  intro fate hfate hne
  have hdirty (hclean : clean) : False := hne (hfate.2 hclean)
  exact ⟨⟨hS, nofun, fun h => (hdirty h).elim⟩, fun e => ⟨hS, nofun, fun h => (hdirty h).elim⟩⟩

theorem along_loadCa (hkept : Kept crates data ca t)
    (hsecret : umask &&& 0o044 = 0o044 → KeySecret data t) :
    Along umask (Allowed data clean) (fun u => umask &&& 0o044 = 0o044 → KeySecret data u)
      (Ends (Kept crates data ca) (fun x _ => x = ca) clean) (loadCa crates data) t := by
  obtain ⟨_, hcert⟩ := hkept.cert
  refine along_tryIo (along_chmod hcert (fun hmask => (hsecret hmask).insert_cert _)
    (bad_of_left hkept) ?_)
  have hkept := hkept.insert_cert 0o644
  obtain ⟨_, hkey⟩ := hkept.key
  refine along_tryIo (along_chmod hkey (fun _ => keySecret_insert_key ownerReads_private)
    (bad_of_left hkept) ?_)
  have hkept := hkept.insert_key 0o600
  obtain ⟨_, hcert⟩ := hkept.cert
  obtain ⟨_, hkey⟩ := hkept.key
  refine along_tryIo (along_readToString hcert (bad_of_left hkept) ?_)
  refine along_tryIo (along_readToString hkey (bad_of_left hkept) ?_)
  refine onward_pure ?_
  rw [show CertAuthority.fromPem crates ca.certPem ca.keyPem = .ok ca from hkept.reads]
  exact ⟨hkept, fun x hx => by cases hx; rfl, fun _ => ⟨ca, rfl⟩⟩

theorem along_saveCa (hnone : caKeyPath data ∉ t) (hreads : ReadsBack crates ca) :
    Along umask (Allowed data clean) (fun u => umask &&& 0o044 = 0o044 → KeySecret data u)
      (Ends (Settled crates data) (fun x u => Kept crates data x u) clean) (saveCa data ca) t := by
  have hnew : ∀ f, caKeyPath data ∉ t.insert (caPemPath data) f := by
    intro f
    rw [OrdMap.mem_insert]
    exact fun h => h.elim (fun h => caPemPath_ne_caKeyPath data h.symm) hnone
  have hsecret : ∀ {u : Files}, caKeyPath data ∉ u → KeySecret data u := by
    intro u hu f hf
    exact absurd ((OrdMap.mem_iff_exists _ _).2 ⟨f, hf⟩) hu
  refine along_tryIo (along_createDirAll (bad_of_left (.inl hnone)) ?_)
  -- However much of the certificate is written, there is no key yet.
  refine along_tryIo (along_write (fun i _ => hsecret (hnew _)) (bad_of_left (.inl hnone))
    (fun fate n hfate hne _ => bad_of_left (.inl (hnew _)) fate hfate hne) ?_)
  generalize hcertFile : fill umask t (caPemPath data) (utf8 ca.certPem) = u
  have hu : caKeyPath data ∉ u := hcertFile ▸ hnew _
  have hcert : ∃ mode, u[caPemPath data]? = some ⟨utf8 ca.certPem, mode⟩ := by
    rw [← hcertFile, getElem?_fill, if_pos rfl]
    exact ⟨_, rfl⟩
  have hkey : ∀ bytes, (fill umask u (caKeyPath data) bytes)[caKeyPath data]? =
      some ⟨bytes, 0o666 &&& ~~~umask⟩ := by
    intro bytes
    rw [getElem?_fill, if_pos rfl, Std.ExtTreeMap.getElem?_eq_none hu]
    rfl
  have hkept := kept_fill_key umask hcert hreads
  refine along_tryIo (along_write (fun i hmask => ?_) (bad_of_left (.inl hu)) ?_ ?_)
  · exact keySecret_insert_key (by
      rw [Std.ExtTreeMap.getElem?_eq_none hu]
      exact ownerReads_of_masks hmask)
  · -- A write of the key that did not finish has put all the bytes there.
    intro fate n hfate hne hn
    have hall := hfate.1 rfl n hn
    rw [take_of_length_le hall]
    exact bad_of_left (.inr ⟨ca, hkept⟩) fate hfate hne
  · refine along_tryIo (along_chmod (hkey _) (fun _ => keySecret_insert_key ownerReads_private)
      (bad_of_left (.inr ⟨ca, hkept⟩)) ?_)
    have hsecret : KeySecret data ((fill umask u (caKeyPath data) (utf8 ca.keyPem)).insert
        (caKeyPath data) ⟨utf8 ca.keyPem, 0o600⟩) := keySecret_insert_key ownerReads_private
    have hkept := hkept.insert_key 0o600
    obtain ⟨_, hcert⟩ := hkept.cert
    refine along_tryIo (along_chmod hcert (fun _ => hsecret.insert_cert _)
      (bad_of_left (.inr ⟨ca, hkept⟩)) ?_)
    have hkept := hkept.insert_cert 0o644
    exact onward_pure ⟨.inr ⟨ca, hkept⟩, fun x hx => by cases hx; exact hkept, fun _ => ⟨ca, rfl⟩⟩

/-! ## A whole run -/

theorem Kept.mem_cert (h : Kept crates data ca t) : caPemPath data ∈ t := by
  obtain ⟨mode, hcert⟩ := h.cert
  exact (OrdMap.mem_iff_exists _ _).2 ⟨_, hcert⟩

theorem Kept.mem_key (h : Kept crates data ca t) : caKeyPath data ∈ t := by
  obtain ⟨mode, hkey⟩ := h.key
  exact (OrdMap.mem_iff_exists _ _).2 ⟨_, hkey⟩

theorem along_caFilesExist {ok : Op → Fate → Prop} {G : Files → Prop}
    {Q : Option Bool → Files → Prop}
    (hstop : ∀ path fate, ok (.isThere path) fate → fate ≠ .done → Q none t)
    (hdone : Q (some (decide (caPemPath data ∈ t ∧ caKeyPath data ∈ t))) t) :
    Along umask ok G Q (caFilesExist data) t := by
  refine Along.bind (along_isThere (hstop _) ?_)
  by_cases hcert : caPemPath data ∈ t
  · simp only [hcert, true_and] at hdone
    simp only [hcert, decide_true]
    exact along_isThere (hstop _) hdone
  · simp only [hcert, false_and, decide_false] at hdone
    simp only [hcert, decide_false]
    exact hdone

theorem along_of_kept (umask : Mode) (clean : Prop)
    (fresh : Except DaemonError (CertAuthority Key)) (hkept : Kept crates data ca t)
    (hsecret : umask &&& 0o044 = 0o044 → KeySecret data t) :
    Along umask (Allowed data clean) (fun u => umask &&& 0o044 = 0o044 → KeySecret data u)
      (Ends (Kept crates data ca) (fun x _ => x = ca) clean)
      (loadOrGenerateCa crates data fresh) t := by
  refine Along.bind (along_caFilesExist (fun path fate hfate hne => ?_) ?_)
  · exact ⟨hkept, nofun, fun hclean => absurd (hfate.2 hclean) hne⟩
  · rw [decide_eq_true ⟨hkept.mem_cert, hkept.mem_key⟩]
    exact along_loadCa hkept hsecret

theorem along_of_no_key (umask : Mode) (clean : Prop) (hnone : caKeyPath data ∉ t)
    (hreads : ∀ ca, fresh = .ok ca → ReadsBack crates ca) (hclean : clean → ∃ ca, fresh = .ok ca) :
    Along umask (Allowed data clean) (fun u => umask &&& 0o044 = 0o044 → KeySecret data u)
      (Ends (Settled crates data) (fun x u => Kept crates data x u) clean)
      (loadOrGenerateCa crates data fresh) t := by
  refine Along.bind (along_caFilesExist (fun path fate hfate hne => ?_) ?_)
  · exact ⟨.inl hnone, nofun, fun hclean => absurd (hfate.2 hclean) hne⟩
  · rw [decide_eq_false fun h => hnone h.2]
    show Along _ _ _ _ (generateCa data fresh) t
    cases fresh with
    | error e => exact ⟨.inl hnone, nofun, fun h => nomatch (hclean h).choose_spec⟩
    | ok new => exact along_saveCa hnone (hreads new rfl)

/-- The texts of what a run generates are read back. -/
def CaRun.Sound (crates : Crates Key) (r : CaRun Key) : Prop :=
  ∀ ca, r.fresh = .ok ca → ReadsBack crates ca

/-- One run: what is left, what it returned, and the key at every instant. -/
structure Leaves (crates : Crates Key) (data : Str) (r : CaRun Key) (t : Files) : Prop where
  settled : Settled crates data ((r.on crates data t).left t)
  returned : ∀ ca, (r.on crates data t).result = some (.ok ca) →
    Kept crates data ca ((r.on crates data t).left t)
  kept : ∀ ca, Kept crates data ca t → Kept crates data ca ((r.on crates data t).left t)
  secret : ∀ u ∈ (r.on crates data t).passed, KeySecret data u

theorem leaves_of_settled (hsettled : Settled crates data t) (hsecret : KeySecret data t)
    (hsound : r.Sound crates) (hmasks : r.Masks)
    (hwhole : ∀ c ∈ (r.on crates data t).calls, KeyWhole data c.1 c.2) :
    Leaves crates data r t := by
  have hallowed : ∀ c ∈ (r.on crates data t).calls, Allowed data False c.1 c.2 :=
    fun c hc => ⟨hwhole c hc, False.elim⟩
  have hload (ca : CertAuthority Key) (hkept : Kept crates data ca t) :=
    (along_of_kept r.umask False r.fresh hkept fun _ => hsecret).run hallowed
  rcases hsettled with hnone | ⟨ca, hkept⟩
  · obtain ⟨hpassed, hleft, hreturned, -⟩ :=
      (along_of_no_key r.umask False hnone hsound False.elim).run hallowed
    exact {
      settled := hleft
      returned := hreturned
      kept := fun x hx => absurd hx.mem_key hnone
      secret := fun u hu => hpassed u hu hmasks }
  · obtain ⟨hpassed, hleft, hreturned, -⟩ := hload ca hkept
    exact {
      settled := .inr ⟨ca, hleft⟩
      returned := fun x hx => hreturned x hx ▸ hleft
      kept := fun x hx => (hload x hx).2.1
      secret := fun u hu => hpassed u hu hmasks }

/-! ## Runs one after another -/

/-- What holds between runs. -/
structure AtRest (crates : Crates Key) (data : Str) (t : Files) : Prop where
  settled : Settled crates data t
  secret : KeySecret data t

theorem Leaves.atRest (h : Leaves crates data r t) (hsecret : KeySecret data t) :
    AtRest crates data ((r.on crates data t).left t) :=
  ⟨h.settled, left_of_passed h.secret hsecret⟩

theorem atRest_empty : AtRest crates data ∅ where
  settled := .inl Std.ExtTreeMap.not_mem_empty
  secret := by
    intro f hf
    rw [Std.ExtTreeMap.getElem?_empty] at hf
    cases hf

variable {runs : List (CaRun Key)}

theorem atRest_afterRuns (ht : AtRest crates data t) (hsound : ∀ r ∈ runs, r.Sound crates)
    (hcareful : Careful crates data runs t) :
    AtRest crates data (afterRuns crates data runs t) ∧
      (∀ ca, Kept crates data ca t → Kept crates data ca (afterRuns crates data runs t)) ∧
      ∀ u ∈ runInstants crates data runs t, KeySecret data u := by
  induction runs generalizing t with
  | nil =>
    refine ⟨ht, fun ca h => h, fun u hu => ?_⟩
    obtain rfl := mem_singleton.1 hu
    exact ht.secret
  | cons r rs ih =>
    obtain ⟨hmasks, hwhole, hrest⟩ := hcareful
    obtain ⟨hr, hrs⟩ := forall_mem_cons.1 hsound
    have hleaves := leaves_of_settled ht.settled ht.secret hr hmasks hwhole
    obtain ⟨hafter, hkeeps, hinstants⟩ := ih (hleaves.atRest ht.secret) hrs hrest
    refine ⟨hafter, fun ca h => hkeeps ca (hleaves.kept ca h), fun u hu => ?_⟩
    rcases mem_cons.1 hu with rfl | hu
    · exact ht.secret
    · rcases mem_append.1 hu with hu | hu
      · exact hleaves.secret u hu
      · exact hinstants u hu

theorem afterRuns_append (before later : List (CaRun Key)) (t : Files) :
    afterRuns crates data (before ++ later) t =
      afterRuns crates data later (afterRuns crates data before t) := by
  induction before generalizing t with
  | nil => rfl
  | cons r rs ih => exact ih _

theorem Careful.append {before later : List (CaRun Key)}
    (h : Careful crates data (before ++ later) t) :
    Careful crates data before t ∧
      Careful crates data later (afterRuns crates data before t) := by
  induction before generalizing t with
  | nil => exact ⟨trivial, h⟩
  | cons r rs ih =>
    obtain ⟨hmasks, hwhole, hrest⟩ := h
    exact ⟨⟨hmasks, hwhole, (ih hrest).1⟩, (ih hrest).2⟩

theorem calls_run_nil {α : Type} (p : Prog α) (t : Files) :
    ∀ c ∈ (p.run umask [] t).calls, c.2 = .done := by
  induction p generalizing t with
  | done a => exact nofun
  | call op next ih =>
    simp only [Prog.run, headD_nil, tail_nil]
    cases op.answer t .done with
    | none => simp
    | some a =>
      intro c hc
      rcases mem_cons.1 hc with rfl | hc
      · rfl
      · exact ih a _ c hc

theorem allowed_of_done {op : Op} {fate : Fate} (h : fate = .done) :
    Allowed data True op fate := by
  subst h
  refine ⟨?_, fun _ => rfl⟩
  cases op with
  | write path text => exact fun _ n hn => (Option.some.inj hn).le
  | _ => trivial

theorem result_of_kept (hkept : Kept crates data ca t) (hsecret : KeySecret data t) :
    (CaRun.on crates data ⟨umask, fresh, []⟩ t).result = some (.ok ca) := by
  obtain ⟨-, -, hreturned, hok⟩ := (along_of_kept umask True fresh hkept fun _ => hsecret).run
    fun c hc => allowed_of_done (calls_run_nil _ t c hc)
  obtain ⟨x, hx⟩ := hok trivial
  exact hx.trans (congrArg (some ∘ Except.ok) (hreturned x hx))

theorem result_of_atRest (ht : AtRest crates data t) (hreads : ReadsBack crates ca) :
    ∃ ca', ((CaRun.uninterrupted umask ca).on crates data t).result = some (.ok ca') ∧
      ca'.KeyBelongs crates := by
  rcases ht.settled with hnone | ⟨ca', hkept⟩
  · have hsound : (CaRun.uninterrupted umask ca).Sound crates :=
      fun new h => Except.ok.inj h ▸ hreads
    have halong := along_of_no_key umask True hnone hsound fun _ => ⟨ca, rfl⟩
    obtain ⟨-, -, hreturned, hok⟩ :=
      halong.run fun c hc => allowed_of_done (calls_run_nil _ t c hc)
    obtain ⟨x, hx⟩ := hok trivial
    exact ⟨x, hx, (CertAuthority.of_fromPem (hreturned x hx).reads).2.2⟩
  · exact ⟨ca', result_of_kept hkept ht.secret, (CertAuthority.of_fromPem hkept.reads).2.2⟩

end

/-! ## An authority of two short texts -/

def pemText (tag base64 : String) : Str :=
  "-----BEGIN ".toList ++ tag.toList ++ "-----\n".toList ++ base64.toList ++ "\n-----END ".toList ++
    tag.toList ++ "-----\n"

def sampleCa : CertAuthority Bytes where
  certPem := pemText "CERTIFICATE" "AQI="
  certDer := [1, 2]
  keyPem := pemText "PRIVATE KEY" "AwQ="
  keyPair := [3, 4]

/-- Libraries that read the whole texts of `sampleCa`, and nothing else. -/
def sampleCrates : Crates Bytes where
  parsePem text :=
    if text = sampleCa.certPem then some ⟨"CERTIFICATE", [1, 2]⟩
    else if text = sampleCa.keyPem then some ⟨"PRIVATE KEY", [3, 4]⟩
    else none
  keyPairFromPem text := if text = sampleCa.keyPem then some [3, 4] else none
  publicKeyDer key := if key = [3, 4] then [5, 6] else []
  subjectPki der := if der = [1, 2] then some [5, 6] else none
  fromCaCertDer _ := .ok ()

def sampleData : Str := "/home/u/.local/share/orcker"

theorem sampleCa_readsBack : ReadsBack sampleCrates sampleCa := by
  unfold ReadsBack
  decide +kernel

/-- A run under the usual umask that stops when the first byte of the key is written. -/
def cutRun : CaRun Bytes := ⟨0o022, .ok sampleCa, [.done, .done, .done, .stops (some 1)]⟩

/-- Starting from no files, if every run masks the key from others and none stops inside its
write: the next run that is not stopped returns an authority with the key of its certificate; an
authority that was once returned is returned by every later run; and at every instant a key is
readable by its owner only. -/
theorem ca_files_kept {crates : Crates Key} {data : Str} {runs : List (CaRun Key)}
    (hsound : ∀ r ∈ runs, r.Sound crates) (hcareful : Careful crates data runs ∅) :
    (∀ umask ca, ReadsBack crates ca →
      ∃ ca', ((CaRun.uninterrupted umask ca).on crates data
        (afterRuns crates data runs ∅)).result = some (.ok ca') ∧ ca'.KeyBelongs crates) ∧
    (∀ before r later ca, runs = before ++ r :: later →
      (r.on crates data (afterRuns crates data before ∅)).result = some (.ok ca) →
      ∀ umask new, ((CaRun.uninterrupted umask new).on crates data
        (afterRuns crates data runs ∅)).result = some (.ok ca)) ∧
    ∀ u ∈ runInstants crates data runs ∅, KeySecret data u := by
  obtain ⟨hafter, -, hinstants⟩ := atRest_afterRuns atRest_empty hsound hcareful
  refine ⟨fun umask ca hreads => result_of_atRest hafter hreads, ?_, hinstants⟩
  rintro before r later ca rfl hreturned umask new
  obtain ⟨hbefore, hmasks, hwhole, hlater⟩ := hcareful.append
  have hsoundBefore : ∀ r ∈ before, r.Sound crates :=
    fun r hr => hsound r (mem_append_left _ hr)
  have hsoundLater : ∀ r ∈ later, r.Sound crates :=
    fun r' hr => hsound r' (mem_append_right _ (mem_cons_of_mem _ hr))
  have hstart := (atRest_afterRuns atRest_empty hsoundBefore hbefore).1
  have hleaves := leaves_of_settled hstart.settled hstart.secret
    (hsound r (mem_append_right _ mem_cons_self)) hmasks hwhole
  have hkept := (atRest_afterRuns (hleaves.atRest hstart.secret) hsoundLater hlater).2.1 ca
    (hleaves.returned ca hreturned)
  refine result_of_kept (t := afterRuns crates data (before ++ r :: later) ∅) ?_ hafter.secret
  rw [afterRuns_append]
  exact hkept

/-- A run that stops inside the certificate, and one that is not stopped. -/
def mendedRuns : List (CaRun Bytes) :=
  [⟨0o077, .ok sampleCa, [.done, .done, .stops (some 5)]⟩, .uninterrupted 0o077 sampleCa]

theorem ca_files_kept_mended :
    ((CaRun.uninterrupted 0o022 sampleCa).on sampleCrates sampleData
      (afterRuns sampleCrates sampleData mendedRuns ∅)).result = some (.ok sampleCa) ∧
    ∀ u ∈ runInstants sampleCrates sampleData mendedRuns ∅, KeySecret sampleData u := by
  have hsound : ∀ r ∈ mendedRuns, r.Sound sampleCrates := by
    have hfresh : ∀ r ∈ mendedRuns, r.fresh = .ok sampleCa := by decide +kernel
    exact fun r hr ca hca => Except.ok.inj ((hfresh r hr).symm.trans hca) ▸ sampleCa_readsBack
  have hcareful : Careful sampleCrates sampleData mendedRuns ∅ :=
    ⟨rfl, by decide +kernel, rfl, by decide +kernel, trivial⟩
  obtain ⟨-, hlater, hsecret⟩ := ca_files_kept hsound hcareful
  exact ⟨hlater [_] _ [] sampleCa rfl (by decide +kernel) _ _, hsecret⟩

/-- The next run cannot read the key, and in between everyone could. -/
theorem ca_key_cut_short :
    cutRun.Sound sampleCrates ∧
    ((CaRun.uninterrupted 0o022 sampleCa).on sampleCrates sampleData
      (afterRuns sampleCrates sampleData [cutRun] ∅)).result =
        some (.error (.tls (.parse .invalidPrivateKeyPem))) ∧
    ∃ u ∈ runInstants sampleCrates sampleData [cutRun] ∅, ¬KeySecret sampleData u := by
  refine ⟨fun ca h => Except.ok.inj h ▸ sampleCa_readsBack, by decide +kernel, ?_⟩
  refine ⟨_, mem_append_right _ mem_cons_self, fun h => ?_⟩
  exact absurd (h ⟨[45], 0o644⟩ (by decide +kernel) (by decide)) (by decide)

end Orcker.Daemon.Ca
