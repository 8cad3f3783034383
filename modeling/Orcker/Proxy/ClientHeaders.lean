import Orcker.Proxy.CgiParams

/-!
# What a client's headers reach

PHP trusts the parameters that the server sets.
-/

namespace Orcker.Proxy

open Base List

theorem ascii_inj {s t : String} : ascii s = ascii t ↔ s = t := by
  constructor
  · exact fun h => String.toList_inj.1 (utf8_injective h)
  · rintro rfl
    rfl

/-- The names of parameters that are not the client's to choose. -/
def isServerOwned (name : Bytes) : Bool :=
  !(ascii "HTTP_").isPrefixOf name &&
    !([ascii "CONTENT_TYPE", ascii "CONTENT_LENGTH", ascii "SERVER_NAME"].contains name)

/-- Header names as the HTTP library keeps them. -/
def LowerNames (headers : HeaderMap) : Prop := ∀ h ∈ headers, lower h.1 = h.1

theorem isServerOwned_headerKey (name : Str) : isServerOwned (headerKey name) = false := by
  have hpre : (ascii "HTTP_").isPrefixOf (headerKey name) = true :=
    isPrefixOf_iff_prefix.2 (prefix_append _ _)
  simp [isServerOwned, hpre]

variable {headers : HeaderMap} {p : Bytes × Bytes}

theorem isServerOwned_of_mem_named (h : p ∈ namedHeaderParams headers) :
    isServerOwned p.1 = false := by
  have hall : ∀ name ∈ [ascii "SERVER_NAME", ascii "HTTP_HOST", ascii "CONTENT_TYPE",
      ascii "CONTENT_LENGTH"], isServerOwned name = false := by
    decide
  exact hall _ (mem_namedHeaderParams h)

section Request

variable {method pathAndQuery : Str} {documentRoot : Path} {scriptRel : Option Path} {https : Bool}
  {remoteAddr serverAddr : SocketAddr} {autoLogin : Option AutoLoginParams}

theorem isServerOwned_of_mem_server (h : p ∈ serverParams method pathAndQuery
      documentRoot scriptRel https remoteAddr serverAddr autoLogin) : isServerOwned p.1 = true := by
  have hkeys : ∀ q ∈ serverParams method pathAndQuery documentRoot scriptRel https remoteAddr
      serverAddr autoLogin, isServerOwned q.1 = true := by
    unfold serverParams
    simp only [forall_mem_append, forall_mem_cons]
    refine ⟨⟨by decide, ?_⟩, ?_⟩
    · cases https
      · exact fun _ h => nomatch h
      · exact forall_mem_singleton.2 (by decide)
    · cases autoLogin
      · exact fun _ h => nomatch h
      · simp only [forall_mem_cons]
        decide
  exact hkeys p h

theorem filter_buildParams (headers : HeaderMap) :
    (buildParams method pathAndQuery headers documentRoot scriptRel https remoteAddr serverAddr
      autoLogin).filter (isServerOwned ·.1) =
      serverParams method pathAndQuery documentRoot scriptRel https remoteAddr serverAddr
        autoLogin := by
  unfold buildParams
  rw [filter_append, filter_append,
    filter_eq_self.2 fun p hp => isServerOwned_of_mem_server hp,
    filter_eq_nil_iff.2 fun p hp => by simp [isServerOwned_of_mem_named hp],
    filter_eq_nil_iff.2, append_nil, append_nil]
  intro p hp
  obtain ⟨h, -, rfl⟩ := mem_map.1 hp
  simp [isServerOwned_headerKey]

theorem mem_buildParams_of_owned {name value : Bytes} (hname : isServerOwned name = true) :
    (name, value) ∈ buildParams method pathAndQuery headers documentRoot scriptRel https remoteAddr
        serverAddr autoLogin ↔
      (name, value) ∈ serverParams method pathAndQuery documentRoot scriptRel https remoteAddr
        serverAddr autoLogin := by
  rw [← filter_buildParams headers, mem_filter, and_iff_left hname]

end Request

/-- One byte of a header's name in its key. -/
def keyByte (b : UInt8) : UInt8 :=
  if b = 45 then 95 else if 97 ≤ b.toNat ∧ b.toNat ≤ 122 then b - 32 else b

theorem eq_host_of_headerKey {name : Str} (hlower : lower name = name)
    (hkey : headerKey name = ascii "HTTP_HOST") : name = "host" := by
  have hmap : (utf8 name).map keyByte = ascii "HOST" := by
    have hhost : ascii "HTTP_HOST" = ascii "HTTP_" ++ ascii "HOST" := by decide
    exact append_cancel_left (hkey.trans hhost)
  have hback : ∀ b ∈ utf8 name, asciiLower (keyByte b) = asciiLower b := by
    intro b hb
    have hmem : keyByte b ∈ ascii "HOST" := hmap ▸ mem_map_of_mem hb
    unfold keyByte at hmem ⊢
    split_ifs at hmem ⊢ with hdash hletter
    · exact absurd hmem (by decide)
    · have hsub : (b - 32).toNat = b.toNat - 32 := by
        rw [UInt8.toNat_sub_of_le]
        · rfl
        · rw [UInt8.le_iff_toNat_le]
          show 32 ≤ b.toNat
          omega
      rw [asciiLower, asciiLower, if_pos (by omega), if_neg (by omega)]
      simp
    · rfl
  refine utf8_injective ?_
  calc utf8 name = (utf8 name).map asciiLower := by rw [utf8_lower, hlower]
    _ = ((utf8 name).map keyByte).map asciiLower := by
      rw [map_map]
      exact (map_congr_left hback).symm
    _ = utf8 "host" := by
      rw [hmap]
      decide

theorem mem_named_host {name value : Bytes}
    (hname : name = ascii "SERVER_NAME" ∨ name = ascii "HTTP_HOST")
    (h : (name, value) ∈ namedHeaderParams headers) : headers.get "host" = some value := by
  have htext {v : Bytes} (hv : (headers.get "host").bind headerText = some v) :
      headers.get "host" = some v := by
    obtain ⟨raw, hraw, hv⟩ := Option.bind_eq_some_iff.1 hv
    unfold headerText at hv
    split_ifs at hv
    rw [hraw, Option.some.inj hv]
  have hother : name ≠ ascii "CONTENT_TYPE" ∧ name ≠ ascii "CONTENT_LENGTH" := by
    rcases hname with rfl | rfl <;> decide
  unfold namedHeaderParams at h
  rcases mem_append.1 h with h | h
  · rcases mem_append.1 h with h | h
    · split at h
      · rename_i host hhost
        rcases mem_pair.1 h with h | h
        · exact (Prod.mk.inj h).2 ▸ htext hhost
        · exact (Prod.mk.inj h).2 ▸ htext hhost
      · cases h
    · split at h
      · exact absurd (Prod.mk.inj (mem_singleton.1 h)).1 hother.1
      · cases h
  · split at h
    · exact absurd (Prod.mk.inj (mem_singleton.1 h)).1 hother.2
    · cases h

/-- For every request and any two header maps: the parameters that are not the client's are the
same. A login is announced exactly if there is one; the peer, the scheme, the script and the root
are the server's; and the name of the host is that of the `Host` header. -/
theorem client_headers_confined (method pathAndQuery : Str) (documentRoot : Path)
    (scriptRel : Option Path) (https : Bool) (remoteAddr serverAddr : SocketAddr)
    (autoLogin : Option AutoLoginParams) (headers headers' : HeaderMap)
    (hnames : LowerNames headers) :
    let params (hs : HeaderMap) := buildParams method pathAndQuery hs documentRoot scriptRel https
      remoteAddr serverAddr autoLogin
    (params headers).filter (isServerOwned ·.1) = (params headers').filter (isServerOwned ·.1) ∧
    ((∃ v, (ascii "PHP_VALUE", v) ∈ params headers) ↔ autoLogin.isSome) ∧
    ((∃ v, (ascii "ORCKER_LOGIN_USER", v) ∈ params headers) ↔ autoLogin.isSome) ∧
    (∀ v, (ascii "REMOTE_ADDR", v) ∈ params headers ↔ v = utf8 remoteAddr.ip) ∧
    (∀ v, (ascii "HTTPS", v) ∈ params headers ↔ https = true ∧ v = ascii "on") ∧
    (∀ v, (ascii "SCRIPT_FILENAME", v) ∈ params headers ↔
      v = utf8 (scriptOf documentRoot scriptRel).1.toStringLossy) ∧
    (∀ v, (ascii "DOCUMENT_ROOT", v) ∈ params headers ↔ v = utf8 documentRoot.toStringLossy) ∧
    ∀ name v, name = ascii "HTTP_HOST" ∨ name = ascii "SERVER_NAME" →
      (name, v) ∈ params headers → headers.get "host".toList = some v := by
  intro params
  refine ⟨?_, ?_, ?_, fun v => ?_, fun v => ?_, fun v => mem_buildParams_scriptFilename,
    fun v => ?_, fun name v hname hmem => ?_⟩
  · show (buildParams _ _ _ _ _ _ _ _ _).filter _ = (buildParams _ _ _ _ _ _ _ _ _).filter _
    rw [filter_buildParams, filter_buildParams]
  · refine (exists_congr fun v => mem_buildParams_of_owned (by decide)).trans ?_
    cases https <;> cases autoLogin <;> simp [serverParams, ascii_inj]
  · refine (exists_congr fun v => mem_buildParams_of_owned (by decide)).trans ?_
    cases https <;> cases autoLogin <;> simp [serverParams, ascii_inj]
  · refine (mem_buildParams_of_owned (by decide)).trans ?_
    cases https <;> cases autoLogin <;> simp [serverParams, ascii_inj]
  · refine (mem_buildParams_of_owned (by decide)).trans ?_
    cases https <;> cases autoLogin <;> simp [serverParams, ascii_inj]
  · refine (mem_buildParams_of_owned (by decide)).trans ?_
    cases https <;> cases autoLogin <;> simp [serverParams, ascii_inj]
  · have hserver : (name, v) ∉ serverParams method pathAndQuery documentRoot scriptRel https
        remoteAddr serverAddr autoLogin := by
      intro hmem
      have hown : isServerOwned name = true := isServerOwned_of_mem_server hmem
      rcases hname with rfl | rfl <;> exact absurd hown (by decide)
    rcases mem_append.1 hmem with hmem | hmem
    · exact mem_named_host hname.symm ((mem_append.1 hmem).resolve_left hserver)
    · -- A header under this name would be the `Host` header, which is left out here.
      obtain ⟨h, hplain, heq⟩ := mem_map.1 hmem
      obtain ⟨hh, hnot⟩ := mem_filter.1 hplain
      obtain ⟨rfl, -⟩ := Prod.mk.inj heq
      rcases hname with hname | hname
      · rw [eq_host_of_headerKey (hnames h hh) hname] at hnot
        cases hnot
      · exact absurd hname (headerKey_ne (by decide))

/-- Headers that spell the reserved names. -/
def forgingHeaders : HeaderMap :=
  [("host", ascii "app.test"), ("https", ascii "on"), ("php-value", ascii "x"),
    ("remote_addr", ascii "10.0.0.1")]

theorem client_headers_confined_forging :
    LowerNames forgingHeaders ∧
      ∀ v, (ascii "HTTP_HOST", v) ∈ buildParams "GET" "/" forgingHeaders "/srv/app" none false
        ⟨"127.0.0.1", 80⟩ ⟨"127.0.0.1", 80⟩ none → v = ascii "app.test" := by
  have hnames : LowerNames forgingHeaders := by
    unfold LowerNames forgingHeaders
    decide
  refine ⟨hnames, fun v hv => ?_⟩
  obtain ⟨-, -, -, -, -, -, -, hhost⟩ := client_headers_confined "GET" "/" "/srv/app" none false
    ⟨"127.0.0.1", 80⟩ ⟨"127.0.0.1", 80⟩ none forgingHeaders [] hnames
  have hget : forgingHeaders.get "host".toList = some (ascii "app.test") := by decide
  exact (Option.some.inj ((hget.symm.trans (hhost _ v (.inl rfl) hv)))).symm

end Orcker.Proxy
