import Orcker.Config.Parse

/-!
# What a migration keeps

The walk from any version, read off the tables: every step raises the version and leaves the other
top-level keys alone, and two of them rewrite the services.
-/

namespace Base.Toml

theorem find_erase (key key' : Str) (t : Table) :
    find key' (erase key t) = if key = key' then none else find key' t := by
  induction t with
  | nil => simp [erase, find]
  | cons e t ih =>
    obtain ⟨k, v⟩ := e
    unfold erase at ih ⊢
    rw [List.filter_cons, find]
    by_cases hk : k = key
    · subst hk
      rw [if_neg (by simp), ih]
      split <;> rfl
    · rw [if_pos (by simpa using hk), find, ih]
      by_cases hkey : k = key'
      · rw [if_pos hkey, if_pos hkey, if_neg]
        rintro rfl
        exact hk hkey
      · rw [if_neg hkey, if_neg hkey]

theorem find_map (f : Str → Toml → Toml) (key : Str) (t : Table) :
    find key (t.map fun e => (e.1, f e.1 e.2)) = (find key t).map (f key) := by
  induction t with
  | nil => rfl
  | cons e t ih =>
    obtain ⟨k, v⟩ := e
    rw [List.map_cons, find, find, ih]
    split
    · rename_i hk
      rw [hk, Option.map_some]
    · rfl

def at? : List Str → Toml → Option Toml
  | [], v => some v
  | key :: path, .table t => (find key t).bind (at? path)
  | _ :: _, _ => none

end Base.Toml

namespace Orcker.Schema

open Base Orcker.Core Toml Option

/-- What a step makes of the services. -/
def serviceStep (n : Nat) : Table → Table :=
  if n = 2 then promoteEnabled else if n = 14 then enableSingles else id

def onTable (f : Table → Table) : Toml → Toml
  | .table t => .table (f t)
  | v => v

/-- The version is set, the services are rewritten, and the other keys keep their values. -/
structure Rewrites (version : Nat) (f : Table → Table) (t t' : Table) : Prop where
  version : find "version" t' = some (.integer version)
  services : find "services" t' = (find "services" t).map (onTable f)
  others : ∀ key : Str, key ≠ "version" → key ≠ "services" → find key t' = find key t

theorem onTable_id (v : Toml) : onTable id v = v := by cases v <;> rfl

theorem setVersion_rewrites (n : Nat) (t : Table) :
    ∃ t', setVersion n (.table t) = .ok (.table t') ∧ Rewrites n id t t' := by
  refine ⟨_, rfl, by rw [find_insert, if_pos rfl], ?_, fun key hkey _ => ?_⟩
  · rw [find_insert, if_neg (by decide), funext onTable_id, map_id']
  · rw [find_insert, if_neg (Ne.symm hkey)]

theorem updateTable_rewrites (f : Table → Table) (t : Table) :
    ∃ t', updateTable "services" f (.table t) = .table t' ∧
      find "services" t' = (find "services" t).map (onTable f) ∧
      ∀ key : Str, key ≠ "services" → find key t' = find key t := by
  rw [updateTable]
  split
  · rename_i s hs
    refine ⟨_, rfl, ?_, fun key hkey => by rw [find_insert, if_neg (Ne.symm hkey)]⟩
    rw [find_insert, if_pos rfl, hs]
    rfl
  · rename_i hnot
    refine ⟨t, rfl, ?_, fun _ _ => rfl⟩
    cases hs : find "services" t with
    | none => rfl
    | some v =>
      cases v with
      | table s => exact absurd hs (hnot s)
      | _ => rfl

theorem setVersion_updateTable_rewrites (n : Nat) (f : Table → Table) (t : Table) :
    ∃ t', setVersion n (updateTable "services" f (.table t)) = .ok (.table t') ∧
      Rewrites n f t t' := by
  obtain ⟨t₁, hupdate, hservices, hothers⟩ := updateTable_rewrites f t
  obtain ⟨t₂, hset, hversion, hsame, hkeep⟩ := setVersion_rewrites n t₁
  refine ⟨t₂, by rw [hupdate, hset], hversion, ?_, fun key hv hs => ?_⟩
  · rw [hsame, hservices, funext onTable_id, map_id']
  · rw [hkeep key hv hs, hothers key hs]

theorem step_rewrites {n : Nat} {step : MigrationStep} (h : steps[n]? = some step) (t : Table) :
    ∃ t', step (.table t) = .ok (.table t') ∧ Rewrites (n + 1) (serviceStep n) t t' := by
  obtain ⟨hn, rfl⟩ := List.getElem?_eq_some_iff.1 h
  change n < 24 at hn
  interval_cases n
  case «2» => exact setVersion_updateTable_rewrites 3 promoteEnabled t
  case «14» => exact setVersion_updateTable_rewrites 15 enableSingles t
  all_goals exact setVersion_rewrites _ t

/-- What a walk from version `n` makes of the services. -/
def servicesFrom (n : Nat) (s : Table) : Table :=
  let s := if n ≤ 2 then promoteEnabled s else s
  if n ≤ 14 then enableSingles s else s

theorem servicesFrom_step (n : Nat) (s : Table) :
    servicesFrom (n + 1) (serviceStep n s) = servicesFrom n s := by
  unfold servicesFrom serviceStep
  by_cases h2 : n = 2
  · subst h2
    rfl
  by_cases h14 : n = 14
  · subst h14
    rfl
  have hle2 : n + 1 ≤ 2 ↔ n ≤ 2 := by omega
  have hle14 : n + 1 ≤ 14 ↔ n ≤ 14 := by omega
  simp only [h2, h14, hle2, hle14, if_false, id_eq]

theorem Rewrites.trans {m n : Nat} {f g h : Table → Table} {t t₁ t₂ : Table}
    (hfirst : Rewrites m f t t₁) (hrest : Rewrites n g t₁ t₂) (heq : ∀ s, g (f s) = h s) :
    Rewrites n h t t₂ := by
  refine ⟨hrest.version, ?_, fun key hv hs => (hrest.others key hv hs).trans
    (hfirst.others key hv hs)⟩
  rw [hrest.services, hfirst.services, map_map]
  congr 1
  funext v
  cases v with
  | table s => exact congrArg Toml.table (heq s)
  | _ => rfl

/-- A walk rewrites the services in one of three ways, by where it starts. -/
theorem walk_rewrites {count n : Nat} (h : n + count = currentVersion) {t : Table}
    (hversion : find "version" t = some (.integer n)) :
    ∃ t', walk count n (.table t) = .ok (.table t') ∧
      Rewrites currentVersion (servicesFrom n) t t' := by
  change n + count = 24 at h
  induction count generalizing n t with
  | zero =>
    obtain rfl : n = 24 := h
    refine ⟨t, rfl, hversion, ?_, fun _ _ _ => rfl⟩
    rw [show onTable (servicesFrom 24) = id from funext onTable_id, map_id, id]
  | succ count ih =>
    have hn : n < steps.length := by
      change n < 24
      omega
    obtain ⟨t₁, hstep, hfirst⟩ := step_rewrites (List.getElem?_eq_getElem hn) t
    obtain ⟨t', hwalk, hrest⟩ := ih hfirst.version (by omega)
    refine ⟨t', ?_, hfirst.trans hrest (servicesFrom_step n)⟩
    rw [walk, List.getElem?_eq_getElem hn]
    simp only [hstep, ok_bind, hwalk]

/-- The table under the key is there afterwards, with all its fields but `enabled`. -/
def KeepsFields (s s' : Table) (key : Str) : Prop :=
  ∀ fields, find key s = some (.table fields) → ∃ fields', find key s' = some (.table fields') ∧
    ∀ field : Str, field ≠ "enabled" → find field fields' = find field fields

/-- The table under the key, where there is one, is switched on. -/
def SwitchedOn (s' : Table) (key : Str) : Prop :=
  ∃ fields, find key s' = some (.table fields) ∧ find "enabled" fields = some (.boolean true)

def asName : Toml → Option Str
  | .string name => some name
  | _ => none

def isNames : Toml → Bool
  | .array items => items.all fun item => (asName item).isSome
  | _ => false

def namesOf : Toml → List Str
  | .array items => items.filterMap asName
  | _ => []

/-- Per-site tables stay as they are. -/
def enableSingle (key : Str) : Toml → Toml
  | .table t => if ':' ∈ key then .table t else .table (insert "enabled" (.boolean true) t)
  | v => v

theorem find_enableSingles (key : Str) (s : Table) :
    find key (enableSingles s) = (find key s).map (enableSingle key) := by
  rw [← find_map enableSingle]
  congr 1
  unfold enableSingles
  refine List.map_congr_left fun e _ => ?_
  obtain ⟨k, v⟩ := e
  cases v with
  | table t =>
    simp only [enableSingle]
    split <;> rfl
  | _ => rfl

theorem keepsFields_enableSingles (s : Table) (key : Str) :
    KeepsFields s (enableSingles s) key := by
  intro fields hfind
  rw [find_enableSingles, hfind, map_some, enableSingle]
  split
  · exact ⟨fields, rfl, fun _ _ => rfl⟩
  · exact ⟨_, rfl, fun field hne => by rw [find_insert, if_neg (Ne.symm hne)]⟩

def promoted : Toml := .table [("enabled", .boolean true)]

/-- One turn of the loop of `promoteEnabled`. -/
def promote (services : Table) : Toml → Table
  | .string name => insert name promoted services
  | _ => services

theorem find_foldl_promote (items : List Toml) (s : Table) (key : Str) :
    find key (items.foldl promote s) =
      if key ∈ namesOf (.array items) then some promoted else find key s := by
  induction items generalizing s with
  | nil => rfl
  | cons item items ih =>
    rw [List.foldl_cons, ih]
    cases item with
    | string name =>
      have hnames : namesOf (.array (.string name :: items)) = name :: namesOf (.array items) := rfl
      rw [hnames, promote, find_insert]
      by_cases hmem : key ∈ namesOf (.array items)
      · rw [if_pos hmem, if_pos (List.mem_cons_of_mem _ hmem)]
      · rw [if_neg hmem]
        by_cases hname : name = key
        · rw [if_pos hname, if_pos (List.mem_cons.2 (.inl hname.symm))]
        · rw [if_neg hname, if_neg]
          rw [List.mem_cons, not_or]
          exact ⟨Ne.symm hname, hmem⟩
    | _ => rfl

theorem find_promoteEnabled (s : Table) (key : Str) :
    find key (promoteEnabled s) =
      if key ∈ ((find "enabled" s).map namesOf).getD [] then some promoted
      else if key = "enabled" then none else find key s := by
  have herase : find key (erase "enabled" s) =
      if key = "enabled" then none else find key s := by
    rw [find_erase]
    exact if_congr eq_comm rfl rfl
  unfold promoteEnabled
  split
  · rename_i items hitems
    refine (find_foldl_promote items (erase "enabled" s) key).trans ?_
    rw [herase, hitems]
    rfl
  · rename_i hnot
    have hnone : ((find "enabled" s).map namesOf).getD [] = [] := by
      cases hv : find "enabled" s with
      | none => rfl
      | some v =>
        cases v with
        | array items => exact absurd hv (hnot items)
        | _ => rfl
    rw [hnone, if_neg List.not_mem_nil, herase]

/-- Names listed become tables that are switched on, other tables keep their fields, and what is not
a list of names stays, for the reader to refuse. -/
structure PromotesAll (s s' : Table) (rejected : Prop) : Prop where
  listed : ∀ v, find "enabled" s = some v → isNames v = true → ∀ name ∈ namesOf v,
    SwitchedOn s' name
  kept : ∀ key : Str, key ≠ "enabled" → KeepsFields s s' key
  malformed : ∀ v, find "enabled" s = some v → isNames v = false →
    find "enabled" s' = some v ∧ rejected

/-- `enabled` is missing or a list of names, and no name on it has a table of its own with another
field. -/
def LosesNothing (s : Table) : Prop :=
  ∀ v, find "enabled" s = some v → isNames v = true ∧ ∀ name ∈ namesOf v, name ≠ "enabled" →
    ∀ fields, find name s = some (.table fields) →
      ∀ field : Str, field ≠ "enabled" → find field fields = none

theorem enableSingle_promoted (key : Str) : enableSingle key promoted = promoted := by
  rw [promoted, enableSingle]
  split <;> rfl

theorem find_promoted {field : Str} (h : field ≠ "enabled") :
    find field [("enabled", .boolean true)] = none := by
  rw [find, if_neg (Ne.symm h), find]

section Oldest

variable {s : Table} {v : Toml} {name : Str}

theorem find_of_listed (hv : find "enabled" s = some v) (hname : name ∈ namesOf v) :
    find name (enableSingles (promoteEnabled s)) = some promoted := by
  rw [find_enableSingles, find_promoteEnabled, hv, map_some, getD_some,
    if_pos hname, map_some, enableSingle_promoted]

theorem find_of_unlisted (hname : ∀ v, find "enabled" s = some v → name ∉ namesOf v)
    (hne : name ≠ "enabled") : find name (promoteEnabled s) = find name s := by
  rw [find_promoteEnabled, if_neg, if_neg hne]
  cases hv : find "enabled" s with
  | none => exact List.not_mem_nil
  | some v => exact hname v hv

theorem find_enabled_ne (hv : find "enabled" s = some v) :
    find "enabled" (enableSingles (promoteEnabled s)) ≠ some v := by
  intro hkept
  by_cases hlisted : "enabled".toList ∈ namesOf v
  · -- Then `v` is a list, and a table stands in its place.
    rw [find_of_listed hv hlisted, some.injEq] at hkept
    rw [← hkept] at hlisted
    cases hlisted
  · rw [find_enableSingles, find_promoteEnabled, hv, map_some, getD_some,
      if_neg hlisted, if_pos rfl] at hkept
    cases hkept

theorem promotesAll_iff {rejected : Prop} :
    PromotesAll s (enableSingles (promoteEnabled s)) rejected ↔ LosesNothing s := by
  constructor
  · intro h v hv
    have hnames : isNames v = true := by
      by_contra hnot
      rw [Bool.not_eq_true] at hnot
      exact find_enabled_ne hv (h.malformed v hv hnot).1
    refine ⟨hnames, fun name hname hne fields hfields field hfield => ?_⟩
    obtain ⟨fields', hfind, hkept⟩ := h.kept name hne fields hfields
    rw [find_of_listed hv hname, promoted, some.injEq, Toml.table.injEq] at hfind
    rw [← hkept field hfield, ← hfind, find_promoted hfield]
  · intro h
    refine ⟨fun v hv _ name hname => ?_, fun key hkey fields hfields => ?_,
      fun v hv hnames => ?_⟩
    · exact ⟨_, find_of_listed hv hname, rfl⟩
    · by_cases hlisted : ∃ v, find "enabled" s = some v ∧ key ∈ namesOf v
      · obtain ⟨v, hv, hname⟩ := hlisted
        refine ⟨_, find_of_listed hv hname, fun field hfield => ?_⟩
        rw [find_promoted hfield, (h v hv).2 key hname hkey fields hfields field hfield]
      · have hsame := find_of_unlisted (fun v hv hname => hlisted ⟨v, hv, hname⟩) hkey
        exact keepsFields_enableSingles _ key fields (hsame.trans hfields)
    · rw [(h v hv).1] at hnames
      cases hnames

end Oldest

/-- Per-site tables stay as they are, the others are switched on and keep their other fields. -/
def SinglesOn (s s' : Table) : Prop :=
  ∀ key fields, find key s = some (.table fields) →
    if ':' ∈ key then find key s' = some (.table fields)
    else ∃ fields', find key s' = some (.table fields') ∧
      find "enabled" fields' = some (.boolean true) ∧
      ∀ field : Str, field ≠ "enabled" → find field fields' = find field fields

theorem singlesOn_enableSingles (s : Table) : SinglesOn s (enableSingles s) := by
  intro key fields hfind
  have hsingle : find key (enableSingles s) = some (enableSingle key (.table fields)) := by
    rw [find_enableSingles, hfind, map_some]
  rw [enableSingle] at hsingle
  split
  · rename_i hcolon
    rw [hsingle, if_pos hcolon]
  · rename_i hcolon
    rw [if_neg hcolon] at hsingle
    refine ⟨_, hsingle, by rw [find_insert, if_pos rfl], fun field hne => ?_⟩
    rw [find_insert, if_neg (Ne.symm hne)]

/-- For every table and the version found in it, up to the current one: the migration succeeds at
the current version and keeps every top-level key but the version and the services; from version 15
on it keeps the services too, from version 3 on it switches on the tables without a site and keeps
the rest of them, and from the versions before it does as it should exactly if `LosesNothing`. -/
theorem migration_keeps_iff (t : Table) (v : Nat) (h : v ≤ currentVersion)
    (hversion : find "version" t = some (.integer v)) :
    ∃ t', up (.table t) v = .ok (.table t') ∧
      find "version" t' = some (.integer currentVersion) ∧
      (∀ key : Str, key ≠ "version".toList → key ≠ "services".toList →
        find key t' = find key t) ∧
      (15 ≤ v ∨ (∀ s, find "services" t ≠ some (.table s)) →
        find "services" t' = find "services" t) ∧
      ∀ s, find "services" t = some (.table s) →
        ∃ s', find "services" t' = some (.table s') ∧
          (3 ≤ v → v ≤ 14 → SinglesOn s s') ∧
          (v ≤ 2 → (PromotesAll s s' (∀ cfg, Config.fromDocument (.table t') ≠ .ok cfg) ↔
            LosesNothing s)) := by
  obtain ⟨t', hup, hrewrites⟩ : ∃ t', up (.table t) v = .ok (.table t') ∧
      Rewrites currentVersion (servicesFrom v) t t' := walk_rewrites (by omega) hversion
  refine ⟨t', hup, hrewrites.version, hrewrites.others, fun hkeep => ?_, fun s hs => ?_⟩
  · rw [hrewrites.services]
    cases hs : find "services" t with
    | none => rfl
    | some w =>
      rw [map_some]
      rcases hkeep with hlate | hnot
      · have hid : servicesFrom v = id := by
          funext s
          rw [servicesFrom, if_neg (by omega), if_neg (by omega), id]
        rw [hid, onTable_id]
      · cases w with
        | table s => exact absurd hs (hnot s)
        | _ => rfl
  · refine ⟨servicesFrom v s, by rw [hrewrites.services, hs]; rfl, fun hlow hhigh => ?_,
      fun hold => ?_⟩
    · rw [servicesFrom, if_pos hhigh, if_neg (by omega)]
      exact singlesOn_enableSingles s
    · rw [servicesFrom, if_pos (by omega), if_pos hold]
      exact promotesAll_iff

def oldFile (services : Table) : Table :=
  [("services", .table services), ("version", .integer 2)]

def listedOnly : Table :=
  [("enabled", .array [.string "redis"]), ("mysql", .table [("port", .integer 3307)])]

theorem migration_keeps_listed :
    ∃ t', up (.table (oldFile listedOnly)) 2 = .ok (.table t') ∧
      ∃ s', find "services" t' = some (.table s') ∧ SwitchedOn s' "redis" ∧
        KeepsFields listedOnly s' "mysql" := by
  obtain ⟨t', hup, -, -, -, hservices⟩ :=
    migration_keeps_iff (oldFile listedOnly) 2 (by decide) rfl
  obtain ⟨s', hs', -, hold⟩ := hservices listedOnly rfl
  have hloses : LosesNothing listedOnly := by
    intro v hv
    obtain rfl : v = .array [.string "redis".toList] := (some.inj hv).symm
    refine ⟨rfl, fun name hname _ fields hfields => ?_⟩
    obtain rfl := List.mem_singleton.1 hname
    cases hfields
  obtain ⟨hlisted, hkept, -⟩ := (hold (by decide)).2 hloses
  exact ⟨t', hup, s', hs', hlisted _ rfl rfl _ (List.mem_singleton.2 rfl),
    hkept _ (by decide)⟩

/-- A listed name that has a table of its own loses its port, and an `enabled` that is no list is
gone, so that nothing is left to refuse. -/
theorem migration_loses :
    (at? ["services", "redis", "port"] (.table (oldFile
      [("enabled", .array [.string "redis"]), ("redis", .table [("port", .integer 6380)])]))).isSome ∧
    ((up (.table (oldFile [("enabled", .array [.string "redis"]),
      ("redis", .table [("port", .integer 6380)])])) 2).toOption.bind
        (at? ["services", "redis"])).isSome ∧
    ((up (.table (oldFile [("enabled", .array [.string "redis"]),
      ("redis", .table [("port", .integer 6380)])])) 2).toOption.bind
        (at? ["services", "redis", "port"])).isNone ∧
    ((up (.table (oldFile [("enabled", .boolean true)])) 2).toOption.bind
        (at? ["services", "enabled"])).isNone := by
  decide +kernel

end Orcker.Schema
