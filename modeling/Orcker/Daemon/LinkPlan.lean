import Orcker.Daemon.Link

/-!
# What a link plan establishes

The outcomes of `planLink`, each with all that the plan has checked.
-/

namespace Orcker.Daemon

open Base Orcker.Core Orcker.Schema List Except

variable {writeYml : Option OrckerYml}

section Names

variable {root : Path} {requested : Option Str} {existingYml : Option OrckerYml} {name : Str}

theorem isLabel_of_deriveName (h : deriveName root requested existingYml = some name) :
    name ≠ [] ∧ IsLabel name := by
  unfold deriveName at h
  split at h
  · exact isLabel_of_normalize h
  · exact isLabel_of_normalize h
  · obtain ⟨raw, -, h⟩ := Option.bind_eq_some_iff.1 h
    exact isLabel_of_slugify h

theorem newDescriptor_eq (h : name ≠ [] ∧ IsLabel name) (existingYml : Option OrckerYml) :
    newDescriptor name existingYml = .ok (if existingYml.isSome then none else some
      ⟨OrckerYml.currentSchemaVersion, name, descriptorPhp, descriptorDb, descriptorPreset⟩) := by
  cases existingYml with
  | some yml => rfl
  | none =>
    have hsite : OrckerYml.validatedSite name = .ok name := by
      rw [OrckerYml.validatedSite, normalizeSiteName_of_isLabel h]
    have hnew : OrckerYml.new name descriptorPhp descriptorDb descriptorPreset =
        .ok ⟨OrckerYml.currentSchemaVersion, name, descriptorPhp, descriptorDb,
          descriptorPreset⟩ := by
      rw [OrckerYml.new, hsite]
      rfl
    rw [newDescriptor, hnew]
    rfl

/-- With the descriptor that was found or written, the name comes out again: a directory's slug is
a label, and reading it back from the descriptor leaves a label alone. -/
theorem deriveName_again (h : deriveName root requested existingYml = some name)
    (hyml : newDescriptor name existingYml = .ok writeYml) :
    deriveName root requested (existingYml.or writeYml) = some name := by
  have hlabel := isLabel_of_deriveName h
  rw [newDescriptor_eq hlabel, ok.injEq] at hyml
  subst hyml
  cases requested with
  | some requested => exact h
  | none =>
    cases existingYml with
    | some yml => exact h
    | none => exact normalizeSiteName_of_isLabel hlabel

end Names

def InRange (port : UInt16) : Prop := firstProjectPort ≤ port ∧ port ≤ lastProjectPort

variable {port : UInt16}

theorem InRange.ne_zero (h : InRange port) : port ≠ 0 := by
  rintro rfl
  exact absurd h.1 (by decide)

theorem mem_projectPorts_iff : port ∈ projectPorts ↔ InRange port := by
  have hfirst : firstProjectPort.toNat = 20000 := rfl
  have hlast : lastProjectPort.toNat = 29999 := rfl
  rw [projectPorts, mem_map, InRange, UInt16.le_iff_toNat_le, UInt16.le_iff_toNat_le]
  simp only [mem_range, hfirst, hlast]
  constructor
  · rintro ⟨i, hi, rfl⟩
    rw [UInt16.toNat_add, UInt16.toNat_ofNat', hfirst]
    omega
  · rintro ⟨hle, hge⟩
    refine ⟨port.toNat - 20000, by omega, UInt16.toNat_inj.1 ?_⟩
    rw [UInt16.toNat_add, UInt16.toNat_ofNat', hfirst]
    omega

variable {taken : List UInt16} {isFree : UInt16 → Bool}

theorem allocatePort_eq_ok (h : allocatePort taken isFree = .ok port) :
    InRange port ∧ port ∉ taken := by
  unfold allocatePort at h
  split at h
  · next found hfind =>
    obtain rfl : found = port := ok.inj h
    have hfree := find?_some hfind
    simp only [Bool.and_eq_true, decide_eq_true_eq] at hfree
    exact ⟨mem_projectPorts_iff.1 (mem_of_find?_eq_some hfind), hfree.1⟩
  · cases h

/-- No port is left. -/
def Exhausted (taken : List UInt16) (isFree : UInt16 → Bool) : Prop :=
  ∀ port, InRange port → port ∈ taken ∨ isFree port = false

theorem allocatePort_eq_error {e : CoreError} (h : allocatePort taken isFree = .error e) :
    e = .portRangeExhausted firstProjectPort lastProjectPort ∧ Exhausted taken isFree := by
  unfold allocatePort at h
  split at h
  · cases h
  · next hfind =>
    refine ⟨(error.inj h).symm, fun port hport => ?_⟩
    have hnot := find?_eq_none.1 hfind port (mem_projectPorts_iff.2 hport)
    simp only [Bool.and_eq_true, decide_eq_true_eq, not_and, Bool.not_eq_true] at hnot
    by_cases hmem : port ∈ taken
    · exact .inl hmem
    · exact .inr (hnot hmem)

theorem choosePort_eq_ok {cfg : Config} {requested : Option UInt16}
    (h : choosePort cfg requested isFree = .ok port) : InRange port ∧ port ∉ takenPorts cfg := by
  unfold choosePort at h
  split at h
  · split at h
    · cases h
    rename_i hin
    split at h
    · cases h
    · rename_i hnone
      cases h
      rw [not_or, UInt16.not_lt, UInt16.not_lt] at hin
      refine ⟨hin, fun hmem => ?_⟩
      obtain ⟨p, hp, hport⟩ := mem_map.1 hmem
      exact find?_eq_none.1 hnone p hp (decide_eq_true hport)
  · rw [mapError_eq_ok_iff] at h
    exact allocatePort_eq_ok h

section Plan

variable {cfg : Config} {root : Path} {requestedName : Option Str} {requestedPort : Option UInt16}
  {existingYml : Option OrckerYml} {isFree : UInt16 → Bool} {p : ContainerProject}

/-- What a plan for a new project has checked. -/
structure Planned (cfg : Config) (root : Path) (requestedName : Option Str)
    (existingYml : Option OrckerYml) (p : ContainerProject) (writeYml : Option OrckerYml) :
    Prop where
  name : deriveName root requestedName existingYml = some p.name.text
  root : p.root = root
  inRange : InRange p.port
  unallocated : p.port ∉ takenPorts cfg
  projects : ∀ q ∈ cfg.projects, q.name.text ≠ p.name.text
  linked : ∀ s ∈ cfg.linked, s.name.text ≠ p.name.text
  proxies : ∀ q ∈ cfg.proxies, q.name.text ≠ p.name.text
  descriptor : newDescriptor p.name.text existingYml = .ok writeYml

theorem planned_of_planLink (h : planLink cfg root requestedName requestedPort existingYml isFree =
      .ok (.link p writeYml)) : Planned cfg root requestedName existingYml p writeYml := by
  unfold planLink at h
  split at h
  · cases h
  rename_i name hname
  split at h
  · split at h <;> cases h
  rename_i hprojects
  split at h
  · cases h
  rename_i htaken
  simp only [bind_eq_ok_iff, mapError_eq_ok_iff, pure_eq_ok, ok.injEq,
    LinkPlan.link.injEq] at h
  obtain ⟨port, hport, _, hyml, project, hproject, rfl, rfl⟩ := h
  obtain ⟨siteName, hnew, rfl⟩ := map_eq_ok_iff.1 hproject
  -- The derived name is a label, which the project keeps as it is.
  obtain ⟨siteName', hnew', rfl⟩ := SiteName.exists_new (isLabel_of_deriveName hname)
  rw [hnew, ok.injEq] at hnew'
  subst hnew'
  rw [Bool.or_eq_true, not_or, any_eq_true, any_eq_true] at htaken
  obtain ⟨hrange, hfree⟩ := choosePort_eq_ok hport
  refine ⟨hname, rfl, hrange, hfree, fun q hq heq => ?_, fun s hs heq => ?_, fun q hq heq => ?_,
    hyml⟩
  · exact find?_eq_none.1 hprojects q hq (decide_eq_true heq)
  · exact htaken.1 ⟨s, hs, decide_eq_true heq⟩
  · exact htaken.2 ⟨q, hq, decide_eq_true heq⟩

theorem planLink_eq_alreadyLinked_iff :
    planLink cfg root requestedName requestedPort existingYml isFree = .ok (.alreadyLinked p) ↔
      ∃ name, deriveName root requestedName existingYml = some name ∧
        cfg.projects.find? (fun q => q.name.text = name) = some p ∧ p.root.same root = true := by
  unfold planLink
  cases hname : deriveName root requestedName existingYml with
  | none => simp
  | some name =>
    simp only [Option.some.injEq, exists_eq_left']
    cases hfind : cfg.projects.find? (fun q => q.name.text = name) with
    | some existing =>
      simp only [Option.some.injEq]
      by_cases hroot : existing.root.same root = true
      · rw [if_pos hroot, ok.injEq, LinkPlan.alreadyLinked.injEq]
        exact ⟨fun h => ⟨h, h ▸ hroot⟩, fun h => h.1⟩
      · rw [if_neg hroot]
        exact iff_of_false (by simp) fun h => hroot (h.1 ▸ h.2)
    | none =>
      refine iff_of_false (fun h => ?_) (by simp)
      simp only at h
      split at h
      · cases h
      · simp [bind_eq_ok_iff, pure_eq_ok] at h

/-- How a plan without a pinned port can fail. -/
theorem planLink_auto_error {e : LinkError}
    (h : planLink cfg root requestedName none existingYml isFree = .error e) :
    e = .noName root ∨ (∃ name, e = .nameTaken name) ∨
      e = .core (.portRangeExhausted firstProjectPort lastProjectPort) ∧
        Exhausted (takenPorts cfg) isFree := by
  unfold planLink at h
  split at h
  · exact .inl (error.inj h).symm
  rename_i name hname
  split at h
  · split at h
    · cases h
    · exact .inr (.inl ⟨name, (error.inj h).symm⟩)
  split at h
  · exact .inr (.inl ⟨name, (error.inj h).symm⟩)
  -- Neither the descriptor nor the project refuses a label.
  have hlabel := isLabel_of_deriveName hname
  obtain ⟨siteName, hnew, -⟩ := SiteName.exists_new hlabel
  cases hport : choosePort cfg none isFree with
  | ok port =>
    have hproject : ContainerProject.new name root port = .ok ⟨siteName, root, port, false⟩ := by
      rw [ContainerProject.new, hnew]
      rfl
    rw [hport, newDescriptor_eq hlabel, ok_bind, ok_bind, hproject] at h
    cases h
  | error e' =>
    rw [hport] at h
    obtain rfl : e' = e := error.inj h
    cases halloc : allocatePort (takenPorts cfg) isFree with
    | ok port =>
      rw [choosePort, halloc] at hport
      cases hport
    | error e =>
      rw [choosePort, halloc] at hport
      obtain ⟨rfl, hexhausted⟩ := allocatePort_eq_error halloc
      exact .inr (.inr ⟨(error.inj hport).symm, hexhausted⟩)

end Plan

end Orcker.Daemon
