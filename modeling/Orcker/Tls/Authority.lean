import Orcker.Base.Fallible
import Orcker.Base.Utf8

/-!
# The certificate authority
-/

namespace Orcker.Tls

open Base

structure Pem where
  tag : Str
  contents : Bytes
  deriving DecidableEq

/-- The libraries for keys and certificates. -/
structure Crates (Key : Type) where
  parsePem : Str → Option Pem
  keyPairFromPem : Str → Option Key
  publicKeyDer : Key → Bytes
  subjectPki : Bytes → Option Bytes
  /-- Reads the parameters of a certificate that may sign others. -/
  fromCaCertDer : Bytes → Except Str Unit

inductive ParseErrorReason where
  | invalidCertificatePem
  | invalidPrivateKeyPem
  | invalidCertificateDer (detail : Str)
  | keyDoesNotMatchCertificate
  deriving DecidableEq

inductive TlsError where
  | parse (reason : ParseErrorReason)
  | generate (detail : Str)
  deriving DecidableEq

/-- A certificate with its private key. -/
structure CertAuthority (Key : Type) where
  certPem : Str
  certDer : Bytes
  keyPem : Str
  keyPair : Key
  deriving DecidableEq

variable {Key : Type}

/-- The key of the authority is the one in its certificate. -/
def CertAuthority.KeyBelongs (crates : Crates Key) (ca : CertAuthority Key) : Prop :=
  crates.subjectPki ca.certDer = some (crates.publicKeyDer ca.keyPair)

/-- The contents of a text that is one block with this tag. -/
def blockWithTag (crates : Crates Key) (text : Str) (tag : Str) (reason : ParseErrorReason) :
    Except TlsError Bytes :=
  match crates.parsePem text with
  | none => .error (.parse reason)
  | some block => if block.tag = tag then .ok block.contents else .error (.parse reason)

/-- Refused if the key is not the certificate's. -/
def CertAuthority.fromPem (crates : Crates Key) (certPem keyPem : Str) :
    Except TlsError (CertAuthority Key) := do
  let certDer ← blockWithTag crates certPem "CERTIFICATE" .invalidCertificatePem
  let _ ← blockWithTag crates keyPem "PRIVATE KEY" .invalidPrivateKeyPem
  match crates.keyPairFromPem keyPem with
  | none => .error (.parse .invalidPrivateKeyPem)
  | some keyPair =>
    match crates.subjectPki certDer with
    | none => .error (.parse (.invalidCertificateDer "x509_parser_parse_failed"))
    | some certSpkiDer =>
      if certSpkiDer ≠ crates.publicKeyDer keyPair then
        .error (.parse .keyDoesNotMatchCertificate)
      else
        match crates.fromCaCertDer certDer with
        | .error e => .error (.parse (.invalidCertificateDer e))
        | .ok () => .ok ⟨certPem, certDer, keyPem, keyPair⟩

theorem CertAuthority.of_fromPem {crates : Crates Key} {certPem keyPem : Str}
    {ca : CertAuthority Key} (h : fromPem crates certPem keyPem = .ok ca) :
    ca.certPem = certPem ∧ ca.keyPem = keyPem ∧ ca.KeyBelongs crates := by
  unfold fromPem at h
  obtain ⟨certDer, -, h⟩ := bind_eq_ok_iff.1 h
  obtain ⟨-, -, h⟩ := bind_eq_ok_iff.1 h
  cases hkey : crates.keyPairFromPem keyPem with
  | none => simp [hkey] at h
  | some keyPair =>
    cases hspki : crates.subjectPki certDer with
    | none => simp [hkey, hspki] at h
    | some spki =>
      simp only [hkey, hspki, ne_eq, ite_not] at h
      by_cases hmatch : spki = crates.publicKeyDer keyPair
      · rw [if_pos hmatch] at h
        cases hparams : crates.fromCaCertDer certDer with
        | error e => simp [hparams] at h
        | ok u =>
          rw [hparams] at h
          obtain rfl := Except.ok.inj h
          exact ⟨rfl, rfl, hspki.trans (congrArg some hmatch)⟩
      · rw [if_neg hmatch] at h
        cases h

end Orcker.Tls
