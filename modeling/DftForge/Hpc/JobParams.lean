import DftForge.Hpc.JobScript

/-! # The priority of the job parameters

A parameter has a key and sometimes an alias. `params` counts before `job_defaults`, and
these before the built-in defaults; which value `_resolve` leaves for each parameter, and
when it is the one that counts.
-/
namespace DftForge.Hpc
open DftForge.Runtime DftForge.Engines

/-- The parameters of a job. -/
inductive JobParam where
  | nodes
  | ntasks
  | cpusPerTask
  | walltime
  | partition
  | account
  | memory
  | moduleLoads
  | envSetup
  deriving DecidableEq

namespace JobParam

def key : JobParam → String
  | .nodes => "nodes"
  | .ntasks => "ntasks"
  | .cpusPerTask => "cpus_per_task"
  | .walltime => "walltime"
  | .partition => "partition"
  | .account => "account"
  | .memory => "memory"
  | .moduleLoads => "module_loads"
  | .envSetup => "env_setup"

def otherName : JobParam → Option String
  | .cpusPerTask => some "ppn"
  | .walltime => some "time_limit"
  | .partition => some "queue"
  | _ => none

/-- The key and the alias. -/
def spellings (k : JobParam) : List String := k.key :: k.otherName.toList

/-- The parameters that are numbers. -/
def isCount : JobParam → Bool
  | .nodes => true
  | .ntasks => true
  | .cpusPerTask => true
  | _ => false

/-- The built-in default. -/
def default : JobParam → Json
  | .nodes => .num 1
  | .ntasks => .num 8
  | .cpusPerTask => .num 1
  | .walltime => .str "24:00:00"
  | _ => .str ""

theorem get?_defaults (k : JobParam) : defaults.get? k.key = some k.default := by
  cases k <;> rfl

end JobParam

/-- The dictionary gives the parameter the value, under one of its spellings. -/
def Gives (d : Dict) (k : JobParam) (v : Json) : Prop := ∃ s ∈ k.spellings, lookupGiven d s = some v

/-- `job_defaults` gives the parameter the value, under one of its spellings. -/
def GivesDefault (jobDefaults : Option JobDefaults) (k : JobParam) (v : Json) : Prop :=
  ∃ s ∈ k.spellings, defaultGiven jobDefaults s = some v

section Lookups
variable {d : Dict} {key c : String} {v : Json}

theorem get?_cons_self : Dict.get? ((c,v) :: d) c = some v := by
  simp [Dict.get?]

theorem get?_cons_of_ne (h : c ≠ key) : Dict.get? ((key,v) :: d) c = Dict.get? d c := by
  have hne : (c == key) = false := beq_false_of_ne h
  simp [Dict.get?, List.lookup_cons, hne]

theorem get?_of_not_mem (h : c ∉ d.map Prod.fst) : Dict.get? d c = none := by
  refine List.lookup_eq_none_iff.mpr fun e he => ?_
  have hne : c ≠ e.1 := fun heq => h (heq ▸ List.mem_map_of_mem he)
  simpa using hne

end Lookups

section Passes

/-- One pass over some keys: the values that are found are stored under the names of the keys. -/
def takeAll (find : String → Option Json) (name : String → String) (keys : List String) (merged : Dict) : Dict :=
  keys.foldl (fun merged key => (find key).elim merged (merged.set (name key))) merged

theorem get?_takeAll (find : String → Option Json) (name : String → String) (keys : List String)
    (merged : Dict) (c : String) :
    (takeAll find name keys merged).get? c =
      ((keys.filter (name · = c)).reverse.findSome? find).or (merged.get? c) := by
  induction keys generalizing merged with
  | nil => simp [takeAll]
  | cons key keys ih =>
    rw [takeAll, List.foldl_cons, ← takeAll, ih]
    by_cases hkey : name key = c
    · subst hkey
      cases hfind : find key <;> simp [hfind, List.findSome?_append]
    · have hne : c ≠ name key := Ne.symm hkey
      cases hfind : find key <;> simp [hkey, Dict.get?_set_of_ne hne]

theorem get?_update {d other : Dict} (h : (other.map Prod.fst).Nodup) (c : String) :
    (d.update other).get? c = (other.get? c).or (d.get? c) := by
  induction other generalizing d with
  | nil => rfl
  | cons e rest ih =>
    obtain ⟨key,v⟩ := e
    rw [List.map_cons, List.nodup_cons] at h
    rw [Dict.update, List.foldl_cons, ← Dict.update, ih h.2]
    by_cases hc : c = key
    · subst hc
      rw [get?_of_not_mem h.1, get?_cons_self, Dict.get?_set_self, Option.none_or, Option.some_or]
    · rw [get?_cons_of_ne hc, Dict.get?_set_of_ne hc]

theorem get?_filter_given {d : Dict} (h : (d.map Prod.fst).Nodup) (c : String) :
    Dict.get? (d.filter fun e => given e.2) c = lookupGiven d c := by
  induction d with
  | nil => rfl
  | cons e rest ih =>
    obtain ⟨key,v⟩ := e
    rw [List.map_cons, List.nodup_cons] at h
    have ih := ih h.2
    by_cases hc : c = key
    · subst hc
      rw [lookupGiven, get?_cons_self, Option.filter_some]
      cases hv : given v with
      | true => rw [List.filter_cons, if_pos hv, get?_cons_self, if_pos rfl]
      | false =>
        rw [List.filter_cons, hv, if_neg Bool.false_ne_true, ih, lookupGiven, get?_of_not_mem h.1,
          Option.filter_none, if_neg Bool.false_ne_true]
    · have hgiven : lookupGiven ((key,v) :: rest) c = lookupGiven rest c := by
        rw [lookupGiven, get?_cons_of_ne hc, lookupGiven]
      rw [hgiven, ← ih, List.filter_cons]
      split
      · exact get?_cons_of_ne hc
      · rfl

theorem get?_withDefaults (merged : Dict) (jobDefaults : Option JobDefaults) (c : String) :
    (withDefaults merged jobDefaults).get? c = (defaultGiven jobDefaults c).or (merged.get? c) := by
  cases jobDefaults with
  | none => rfl
  | some d =>
    have hdistinct : ((d.entries.filter fun e => given e.2).map Prod.fst).Nodup :=
      d.distinct.sublist (List.filter_sublist.map _)
    rw [withDefaults, get?_update hdistinct, get?_filter_given d.distinct]
    rfl

end Passes

section Resolved
variable {nums : Numerals} {params : Dict} {jobDefaults : Option JobDefaults}

/-- The number a count key of `params` gives. -/
def countText (nums : Numerals) (params : Dict) (key : String) : Option Json :=
  (lookupGiven params key).bind fun v => (toInt nums v).toOption.map fun n => .num n

theorem takeInts_ok {keys : List String} {merged result : Dict}
    (h : keys.foldlM (takeInt nums params) merged = .ok result) :
    result = takeAll (countText nums params) intAlias keys merged ∧
      ∀ key ∈ keys, ∀ v, lookupGiven params key = some v → ∃ n, toInt nums v = .ok n := by
  induction keys generalizing merged with
  | nil =>
    cases h
    exact ⟨rfl,nofun⟩
  | cons key keys ih =>
    rw [List.foldlM_cons] at h
    cases hkey : lookupGiven params key with
    | none =>
      rw [takeInt, hkey] at h
      obtain ⟨hresult,hints⟩ := ih h
      have hcounted : countText nums params key = none := by rw [countText, hkey, Option.bind_none]
      refine ⟨?_,List.forall_mem_cons.mpr ⟨fun v hv => ?_,hints⟩⟩
      · rw [hresult, takeAll, takeAll, List.foldl_cons, hcounted]
        rfl
      · cases hkey.symm.trans hv
    | some v =>
      cases hv : toInt nums v with
      | error e =>
        simp only [takeInt, hkey, hv] at h
        cases h
      | ok n =>
        simp only [takeInt, hkey, hv] at h
        obtain ⟨hresult,hints⟩ := ih h
        have hcounted : countText nums params key = some (.num n) := by
          simp [countText, hkey, hv, Except.toOption]
        refine ⟨?_,List.forall_mem_cons.mpr ⟨fun w hw => ?_,hints⟩⟩
        · rw [hresult, takeAll, takeAll, List.foldl_cons, hcounted]
          rfl
        · obtain rfl := Option.some.inj (hkey.symm.trans hw)
          exact ⟨n,hv⟩

theorem takeTexts_eq (keys : List String) (merged : Dict) :
    keys.foldl (takeText params) merged = takeAll (lookupGiven params) textAlias keys merged := by
  have hstep : takeText params =
      fun merged key => (lookupGiven params key).elim merged (merged.set (textAlias key)) := by
    funext merged key
    unfold takeText
    cases lookupGiven params key <;> rfl
  rw [hstep, takeAll]

theorem takeDefaults_eq (keys : List String) (merged : Dict) :
    keys.foldl (takeDefault params jobDefaults) merged =
      takeAll (overriding params jobDefaults) textAlias keys merged := by
  have hstep : takeDefault params jobDefaults =
      fun merged key => (overriding params jobDefaults key).elim merged (merged.set (textAlias key)) := by
    funext merged key
    unfold takeDefault
    cases overriding params jobDefaults key <;> rfl
  rw [hstep, takeAll]

/-- What `params` leaves for a parameter: the alias counts before the key. -/
def taken (nums : Numerals) (params : Dict) (k : JobParam) : Option Json :=
  k.spellings.reverse.findSome? (if k.isCount then countText nums params else lookupGiven params)

/-- What `job_defaults` overwrites a parameter with at the end. -/
def overwritten (params : Dict) (jobDefaults : Option JobDefaults) (k : JobParam) : Option Json :=
  if k.isCount then none else k.spellings.reverse.findSome? (overriding params jobDefaults)

theorem resolve_get? {merged : Dict} (h : resolve nums params jobDefaults = .ok merged) (k : JobParam) :
    merged.get? k.key = (overwritten params jobDefaults k).or ((taken nums params k).or
      ((defaultGiven jobDefaults k.key).or (some k.default))) := by
  unfold resolve at h
  cases hints : intKeys.foldlM (takeInt nums params) (withDefaults defaults jobDefaults) with
  | error e =>
    rw [hints] at h
    cases h
  | ok counts =>
    rw [hints] at h
    cases h
    rw [takeDefaults_eq, get?_takeAll, takeTexts_eq, get?_takeAll, (takeInts_ok hints).1, get?_takeAll,
      get?_withDefaults, JobParam.get?_defaults]
    cases k <;> rfl

theorem overwritten_eq_some {k : JobParam} {v : Json} (h : overwritten params jobDefaults k = some v) :
    k.isCount = false ∧ ∃ s ∈ k.spellings, params.get? s = none ∧ defaultGiven jobDefaults s = some v := by
  unfold overwritten at h
  split at h
  · cases h
  · rename_i hcount
    obtain ⟨s,hs,hover⟩ := List.exists_of_findSome?_eq_some h
    refine ⟨Bool.eq_false_iff.mpr hcount,s,List.mem_reverse.mp hs,?_⟩
    unfold overriding at hover
    split at hover
    · cases hover
    · rename_i habsent
      exact ⟨by simpa [Dict.contains] using habsent,hover⟩

end Resolved

section Priority
variable (nums : Numerals) (params : Dict) (jobDefaults : Option JobDefaults)

/-- The value as `_resolve` keeps it: a count goes through `int`. -/
def Kept (k : JobParam) (u v : Json) : Prop :=
  if k.isCount then ∃ n, toInt nums u = .ok n ∧ v = .num n else v = u

/-- The value that counts for a parameter: one that `params` gives, else one that `job_defaults`
gives, else the built-in default. -/
inductive Prior (k : JobParam) (v : Json) : Prop
  | params (u : Json) (hgives : Gives params k u) (hkept : Kept nums k u v)
  | jobDefaults (hparams : ∀ u, ¬ Gives params k u) (hgives : GivesDefault jobDefaults k v)
  | builtin (hparams : ∀ u, ¬ Gives params k u) (hdefaults : ∀ u, ¬ GivesDefault jobDefaults k u)
    (heq : v = k.default)

/-- The two ways in which a parameter can miss the value that counts do not occur. -/
structure Respected (k : JobParam) : Prop where
  /-- A value of `params` is overwritten with one of its values only. -/
  overwritten : ∀ u v, Gives params k u → overwritten params jobDefaults k = some v → Gives params k v
  /-- An alias that only `job_defaults` gives is read, or gives the default. -/
  read : ∀ s v, (∀ u, ¬ Gives params k u) → k.otherName = some s → defaultGiven jobDefaults s = some v →
    defaultGiven jobDefaults k.key = none → (k.isCount = true ∨ params.contains s = true) → v = k.default

end Priority

section Iff
variable {nums : Numerals} {params : Dict} {jobDefaults : Option JobDefaults} {merged : Dict}

theorem resolve_ints (h : resolve nums params jobDefaults = .ok merged) {key : String} {v : Json}
    (hkey : key ∈ intKeys) (hv : lookupGiven params key = some v) : ∃ n, toInt nums v = .ok n := by
  unfold resolve at h
  cases hints : intKeys.foldlM (takeInt nums params) (withDefaults defaults jobDefaults) with
  | error e =>
    rw [hints] at h
    cases h
  | ok counts => exact (takeInts_ok hints).2 key hkey v hv

theorem spellings_intKeys {k : JobParam} (hcount : k.isCount = true) : ∀ s ∈ k.spellings, s ∈ intKeys := by
  cases k <;> cases hcount <;> decide

/-- What `params` leaves is a value it gives. -/
theorem taken_eq_some {k : JobParam} {v : Json} (h : taken nums params k = some v) :
    ∃ u, Gives params k u ∧ Kept nums k u v := by
  obtain ⟨s,hs,hfind⟩ := List.exists_of_findSome?_eq_some h
  rw [List.mem_reverse] at hs
  unfold Kept
  split at hfind
  · rename_i hcount
    obtain ⟨u,hu,hint⟩ := Option.bind_eq_some_iff.mp hfind
    refine ⟨u,⟨s,hs,hu⟩,?_⟩
    rw [if_pos hcount]
    cases hn : toInt nums u with
    | error e =>
      rw [hn] at hint
      cases hint
    | ok n =>
      rw [hn] at hint
      exact ⟨n,rfl,(Option.some.inj hint).symm⟩
  · rename_i hcount
    refine ⟨v,⟨s,hs,hfind⟩,?_⟩
    rw [if_neg hcount]

/-- Nothing is left where it gives none. -/
theorem taken_eq_none (h : resolve nums params jobDefaults = .ok merged) {k : JobParam} :
    taken nums params k = none ↔ ∀ u, ¬ Gives params k u := by
  rw [taken, List.findSome?_eq_none_iff]
  constructor
  · rintro hnone u ⟨s,hs,hu⟩
    have hfind := hnone s (List.mem_reverse.mpr hs)
    split at hfind
    · rename_i hcount
      obtain ⟨n,hn⟩ := resolve_ints h (spellings_intKeys hcount s hs) hu
      rw [countText, hu, Option.bind_some, hn] at hfind
      cases hfind
    · cases hfind.symm.trans hu
  · intro hnone s hs
    have hgiven : lookupGiven params s = none :=
      Option.eq_none_iff_forall_ne_some.mpr fun u hu => hnone u ⟨s,List.mem_reverse.mp hs,hu⟩
    split
    · rw [countText, hgiven, Option.bind_none]
    · exact hgiven

theorem givesDefault_iff {k : JobParam} {v : Json} : GivesDefault jobDefaults k v ↔
    defaultGiven jobDefaults k.key = some v ∨ ∃ s, k.otherName = some s ∧ defaultGiven jobDefaults s = some v := by
  rw [GivesDefault, JobParam.spellings]
  simp

/-- Where nothing overwrites the parameter, the alias is not an overriding key. -/
theorem overwritten_eq_none {k : JobParam} (h : overwritten params jobDefaults k = none) {s : String} {v : Json}
    (hs : s ∈ k.spellings) (hv : defaultGiven jobDefaults s = some v) :
    k.isCount = true ∨ params.contains s = true := by
  unfold overwritten at h
  split at h
  · rename_i hcount
    exact .inl hcount
  · have hnone := List.findSome?_eq_none_iff.mp h s (List.mem_reverse.mpr hs)
    unfold overriding at hnone
    split at hnone
    · rename_i hcontains
      exact .inr hcontains
    · cases hnone.symm.trans hv

theorem prior_iff (h : resolve nums params jobDefaults = .ok merged) (k : JobParam) :
    (∃ v, merged.get? k.key = some v ∧ Prior nums params jobDefaults k v) ↔ Respected params jobDefaults k := by
  have hget := resolve_get? h k
  cases hover : overwritten params jobDefaults k with
  | some w =>
    obtain ⟨hcount,s,hs,habsent,hw⟩ := overwritten_eq_some hover
    rw [hover, Option.some_or] at hget
    by_cases hgives : ∃ u, Gives params k u
    · obtain ⟨u,hu⟩ := hgives
      constructor
      · rintro ⟨v,hv,hprior⟩
        obtain rfl := Option.some.inj (hget.symm.trans hv)
        cases hprior with
        | params u' hu' hkept =>
          rw [Kept, hcount, if_neg Bool.false_ne_true] at hkept
          subst hkept
          refine ⟨fun _ v _ hv => ?_,fun _ _ hnone => absurd hu (hnone u)⟩
          obtain rfl := Option.some.inj (hover.symm.trans hv)
          exact hu'
        | jobDefaults hnone _ => exact absurd hu (hnone u)
        | builtin hnone _ _ => exact absurd hu (hnone u)
      · intro hrespected
        refine ⟨w,hget,.params w (hrespected.overwritten u w hu hover) ?_⟩
        rw [Kept, hcount, if_neg Bool.false_ne_true]
    · have hnone : ∀ u, ¬ Gives params k u := not_exists.mp hgives
      refine ⟨fun _ => ⟨fun u _ hu => absurd hu (hnone u),fun s' v _ hs' hv hkey hread => ?_⟩,
        fun _ => ⟨w,hget,.jobDefaults hnone ⟨s,hs,hw⟩⟩⟩
      -- the alias alone is given, and it is read
      exfalso
      have hspelling : s = s' := by
        rw [JobParam.spellings, hs', Option.toList_some, List.mem_cons, List.mem_singleton] at hs
        exact hs.resolve_left fun heq => by
          rw [heq, hkey] at hw
          cases hw
      subst hspelling
      rcases hread with hread | hread
      · rw [hcount] at hread
        cases hread
      · rw [Dict.contains, habsent] at hread
        cases hread
  | none =>
    rw [hover, Option.none_or] at hget
    cases htaken : taken nums params k with
    | some t =>
      obtain ⟨u,hu,hkept⟩ := taken_eq_some htaken
      rw [htaken, Option.some_or] at hget
      refine ⟨fun _ => ⟨fun _ v _ hv => ?_,fun _ _ hnone => absurd hu (hnone u)⟩,
        fun _ => ⟨t,hget,.params u hu hkept⟩⟩
      cases hover.symm.trans hv
    | none =>
      have hnone := (taken_eq_none h).mp htaken
      rw [htaken, Option.none_or] at hget
      cases hkey : defaultGiven jobDefaults k.key with
      | some d =>
        rw [hkey, Option.some_or] at hget
        refine ⟨fun _ => ⟨fun u _ hu => absurd hu (hnone u),fun _ _ _ _ _ hkey' => ?_⟩,
          fun _ => ⟨d,hget,.jobDefaults hnone (givesDefault_iff.mpr (.inl hkey))⟩⟩
        cases hkey.symm.trans hkey'
      | none =>
        rw [hkey, Option.none_or] at hget
        constructor
        · rintro ⟨v,hv,hprior⟩
          obtain rfl := Option.some.inj (hget.symm.trans hv)
          refine ⟨fun u _ hu => absurd hu (hnone u),fun s w _ hs hw _ _ => ?_⟩
          cases hprior with
          | params u hu _ => exact absurd hu (hnone u)
          | jobDefaults _ hgives =>
            rcases givesDefault_iff.mp hgives with hd | ⟨s',hs',hd⟩
            · cases hkey.symm.trans hd
            · obtain rfl := Option.some.inj (hs.symm.trans hs')
              exact Option.some.inj (hw.symm.trans hd)
          | builtin _ hdefaults _ => exact absurd (givesDefault_iff.mpr (.inr ⟨s,hs,hw⟩)) (hdefaults w)
        · intro hrespected
          refine ⟨k.default,hget,?_⟩
          by_cases hgives : ∃ w, GivesDefault jobDefaults k w
          · obtain ⟨w,hw⟩ := hgives
            rcases givesDefault_iff.mp hw with hd | ⟨s,hs,hd⟩
            · cases hkey.symm.trans hd
            · have hmem : s ∈ k.spellings := by simp [JobParam.spellings, hs]
              have heq := hrespected.read s w hnone hs hd hkey (overwritten_eq_none hover hmem hd)
              exact .jobDefaults hnone (heq ▸ hw)
          · exact .builtin hnone (not_exists.mp hgives) rfl

/-- For which dictionaries every parameter has the value that counts. -/
theorem resolve_prior_iff (h : resolve nums params jobDefaults = .ok merged) :
    (∀ k : JobParam, ∃ v, merged.get? k.key = some v ∧ Prior nums params jobDefaults k v) ↔
      ∀ k, Respected params jobDefaults k :=
  forall_congr' (prior_iff h)

end Iff

section Cases

/-- Numerals that read no text. -/
def plainNumerals : Numerals := ⟨fun _ => none,fun _ => none,fun _ => "",fun _ => ""⟩

def dayAsWalltime : JobDefaults := ⟨[("walltime",.str "24:00:00"),("ntasks",.num 4)],by decide⟩

def dayAsLimit : JobDefaults := ⟨[("time_limit",.str "48:00:00")],by decide⟩

/-- Parameters and defaults with the same spellings. -/
theorem same_spellings_prior : ∃ merged,
    resolve plainNumerals [("walltime",.str "01:00:00")] (some dayAsWalltime) = .ok merged ∧
    ∀ k : JobParam, ∃ v, merged.get? k.key = some v ∧
      Prior plainNumerals [("walltime",.str "01:00:00")] (some dayAsWalltime) k v := by
  refine ⟨_,rfl,(resolve_prior_iff rfl).mpr fun k => ⟨fun u v _ hv => ?_,fun s v _ hs hv _ _ => ?_⟩⟩
  · cases k <;> cases hv
  · cases k <;> cases hs <;> cases hv

/-- An hour that `params` gives as `walltime` is overwritten with the time limit of `job_defaults`. -/
theorem walltime_overwritten : ∃ merged,
    resolve plainNumerals [("walltime",.str "01:00:00")] (some dayAsLimit) = .ok merged ∧
    merged.get? "walltime" = some (.str "48:00:00") ∧
    ¬ ∀ k : JobParam, ∃ v, merged.get? k.key = some v ∧
      Prior plainNumerals [("walltime",.str "01:00:00")] (some dayAsLimit) k v := by
  refine ⟨_,rfl,rfl,fun hall => ?_⟩
  obtain ⟨v,hv,hprior⟩ := hall .walltime
  have hgives : Gives [("walltime",.str "01:00:00")] .walltime (.str "01:00:00") :=
    ⟨"walltime",List.mem_cons_self,rfl⟩
  cases hv
  cases hprior with
  | params u hu hkept =>
    obtain ⟨s,hs,hfind⟩ := hu
    rcases List.mem_cons.mp hs with rfl | hs
    · cases hfind
      exact absurd (Json.str.inj hkept) (by decide)
    · obtain rfl := List.mem_singleton.mp hs
      cases hfind
  | jobDefaults hnone _ => exact hnone _ hgives
  | builtin hnone _ _ => exact hnone _ hgives

end Cases
end DftForge.Hpc
