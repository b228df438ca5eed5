import DftForge.Agent.ThermoEnergies
import DftForge.Compiler.FormationCells
import DftForge.Library.Doubles
import DftForge.Library.Fallible
import Mathlib.Data.List.DropRight

/-! # Comparisons of a session's runs

`analysis.compare` sets the energies or the band gaps of several runs against each other, pair by
pair. Without entries of its own it gets the last runs of the session, which the context keeps.
Numbers are exact here; the program's doubles add units in the last place.
-/
namespace DftForge.Agent
open DftForge.Library DftForge.Runtime DftForge.Python DftForge.Engines DftForge.Tools DftForge.Compiler DftForge.Qe

structure CompareEntry where
  label : String
  bandGapEv : Json
  isMetal : Json
  fermiEv : Json
  energyRy : Json
  natoms : Json

structure GapItem where
  label : String
  bandGapEv : ℚ
  type : String
  fermiEv : Option ℚ

structure EnergyItem where
  label : String
  energyRy : ℚ
  energyEv : ℚ
  energyEvPerAtom : Option ℚ
  natoms : Option ℤ

structure GapRow where
  between : String × String
  deltaBandGapEv : ℚ
  wider : String

structure EnergyRow where
  between : String × String
  deltaEnergyEv : ℚ
  lower : String
  deltaEnergyEvPerAtom : Option ℚ

inductive Comparison where
  | bandGap (items : List GapItem) (differences : List GapRow)
  | energy (metric : String) (items : List EnergyItem) (differences : List EnergyRow)

inductive CompareError where
  /-- The message under `error` in the answer. -/
  | reported (message : String)
  | raised (text : String)

section Compare
variable (h : Host)

def cleaned (e : Dict) : CompareEntry where
  label := h.text (pyOr (pyOr (field e "label") (field e "material")) (.str "未命名体系"))
  bandGapEv := field e "band_gap_ev"
  isMetal := field e "is_metal"
  fermiEv := field e "fermi_ev"
  energyRy := field e "energy_ry"
  natoms := field e "natoms"

/-- `float(value)`, or the message where there is no value. -/
def floatOr (message : String) : Json → Except CompareError ℚ
  | .null => .error (.reported message)
  | v => (toFloat h.nums v).mapError .raised

/-- `round(value, 6)`. -/
def round6 (q : ℚ) : ℚ := roundHalfEven (q * 10 ^ 6) / 10 ^ 6

def gapType (c : CompareEntry) (gap : ℚ) : String :=
  if gap = 0 then "金属 (零带隙)"
  else if truthy c.isMetal then "近零带隙/金属 (" ++ h.nums.shown gap ++ " eV ≤ 展宽分辨率，不可分辨)"
  else "semiconductor/insulator"

def fermiLevel (c : CompareEntry) : Except CompareError (Option ℚ) :=
  match c.fermiEv with
  | .null => .ok none
  | v => ((toFloat h.nums v).mapError .raised).map some

def gapItem (c : CompareEntry) : Except CompareError GapItem := do
  let gap ← floatOr h ("'" ++ c.label ++ "' has no band gap (wrong template? need t2_bands for both systems)") c.bandGapEv
  let fermi ← fermiLevel h c
  return ⟨c.label,round4 gap,gapType h c gap,fermi.map round4⟩

def energyItem (c : CompareEntry) : Except CompareError EnergyItem := do
  let energy ← floatOr h ("'" ++ c.label ++ "' has no SCF total energy (need t0_scf for both systems)") c.energyRy
  let n ← (toInt h.nums (pyOr c.natoms (.num 0))).mapError CompareError.raised
  return ⟨c.label,round6 energy,round4 (energy * Compiler.ryToEv),if n = 0 then none else some (round4 (energy * Compiler.ryToEv / n)),
    if n = 0 then none else some n⟩

/-- The pairs of the loops over `i` and `j`. -/
def pairs {α : Type*} : List α → List (α × α)
  | [] => []
  | x :: xs => xs.map (fun y => (x,y)) ++ pairs xs

def gapRow (pair : GapItem × GapItem) : GapRow :=
  let d := pair.2.bandGapEv - pair.1.bandGapEv
  ⟨(pair.1.label,pair.2.label),round4 d,if 0 < d then pair.2.label else pair.1.label⟩

def energyRow (pair : EnergyItem × EnergyItem) : EnergyRow :=
  let d := pair.2.energyEv - pair.1.energyEv
  ⟨(pair.1.label,pair.2.label),round4 d,if d < 0 then pair.2.label else pair.1.label,
    pair.1.energyEvPerAtom.bind fun a => pair.2.energyEvPerAtom.map fun b => round4 (b - a)⟩

def asFields : Json → Option Dict
  | .obj fields => some fields
  | _ => none

def compareMetric (args : Dict) (clean : List CompareEntry) : String :=
  let metric := h.text (pyOr (field args "metric") (.str "auto"))
  if metric = "auto" then
    if clean.any fun c => match c.bandGapEv with
      | .null => false
      | _ => true
    then "band_gap" else "energy"
  else metric

def entriesOf (args : Dict) : List Json :=
  match args.get? "entries" with
  | some (.arr entries) => entries
  | _ => []

def compareEntries (metric : String) (clean : List CompareEntry) : Except CompareError Comparison :=
  if metric = "band_gap" then do
    let items ← clean.mapM (gapItem h)
    return .bandGap items ((pairs items).map gapRow)
  else do
    let items ← clean.mapM (energyItem h)
    return .energy metric items ((pairs items).map energyRow)

/-- `_analysis_compare`. -/
def analysisCompare (args : Dict) : Except CompareError Comparison :=
  let entries := entriesOf args
  let clean := (entries.filterMap asFields).map (cleaned h)
  if entries.isEmpty then .error (.reported "no entries to compare — the executor injects the session ledger automatically")
  else if entries.length < 2 then .error (.reported "comparison needs at least 2 calculations; only 1 found")
  else if clean.length < 2 then .error (.reported "comparison needs at least 2 valid calculations")
  else compareEntries h (compareMetric h args clean) clean

end Compare

/-- A graph run that has its ledger entry. -/
def Met.noted (h : Host) (m : Met) : List Json :=
  if m.isRun then (graphRunAdds h.factsRaise m.index m.step.description (m.args h) (m.data h)).1.toList else []

/-- The state after the steps of a turn. -/
def turnEnd (h : Host) (index : ℕ) (s : SessionState) : List (PlanStep × World) → Option SessionState
  | [] => some s
  | (step, w) :: rest =>
    match execStep h w s step with
    | none => none
    | some exit => turnEnd h (index + 1) (s.after h index step exit) rest

/-- What the steps of a turn note. -/
def notedIn (h : Host) (s : SessionState) (steps : List (PlanStep × World)) : List Json :=
  (met h 0 s steps).flatMap (Met.noted h)

/-- The runs noted in the turns of a session and the ledger after them, where every turn ends, or raises before it
has noted a run. Between two turns anything may change but the ledger. -/
inductive Session (h : Host) : List Json → List Json → Prop where
  | start : Session h [] []
  | turn {runs : List Json} {s s' : SessionState} {steps : List (PlanStep × World)} : Session h runs s.ledger →
      (runSession h s steps).isSome → turnEnd h 0 s steps = some s' → Session h (runs ++ notedIn h s steps) s'.ledger
  /-- A turn that raises drops its context; what it had noted would be lost, but for the first run. -/
  | raised {runs : List Json} {s : SessionState} {steps : List (PlanStep × World)} : Session h runs s.ledger →
      runSession h s steps = none → notedIn h s steps = [] → Session h runs s.ledger

section Accuracy
variable {h : Host}

theorem abs_round4_sub_le (q : ℚ) : |round4 q - q| ≤ 1 / 20000 := by
  have hnear : |roundHalfEven (q * 10 ^ 4) - q * 10 ^ 4| ≤ 1 / 2 := Doubles.abs_roundEven_sub_le (q * 10 ^ 4)
  rw [abs_le] at hnear ⊢
  unfold round4
  constructor <;> linarith

/-- Differences of rounded values need no further rounding. -/
theorem round4_sub (p q : ℚ) : round4 (round4 p - round4 q) = round4 p - round4 q := by
  have hint : (round4 p - round4 q) * 10 ^ 4 = ((roundHalfEven (p * 10 ^ 4) - roundHalfEven (q * 10 ^ 4) : ℤ) : ℚ) := by
    push_cast
    unfold round4
    ring
  have hcast (n : ℤ) : roundHalfEven n = n := Doubles.roundEven_intCast n
  rw [round4,hint,hcast,← hint]
  ring

theorem abs_round4_sub_sub_le (p q : ℚ) : |round4 p - round4 q - (p - q)| ≤ 1 / 10 ^ 4 := by
  have hp := abs_le.mp (abs_round4_sub_le p)
  have hq := abs_le.mp (abs_round4_sub_le q)
  rw [abs_le]
  constructor <;> linarith [hp.1,hp.2,hq.1,hq.2]

theorem pairs_forall₂ {α β : Type*} {R : α → β → Prop} {xs : List α} {ys : List β} (hxs : List.Forall₂ R xs ys) :
    List.Forall₂ (fun p q => R p.1 q.1 ∧ R p.2 q.2) (pairs xs) (pairs ys) := by
  induction hxs with
  | nil => exact List.Forall₂.nil
  | cons hx hxs ih =>
    refine List.rel_append ?_ ih
    rw [List.forall₂_map_left_iff,List.forall₂_map_right_iff]
    exact hxs.imp fun _ _ hy => ⟨hx,hy⟩

/-- What two lists share item by item is a list between them. -/
theorem exists_forall₂ {α β γ : Type*} {R : α → β → Prop} {S : β → γ → Prop} {xs : List α} {zs : List γ}
    (hxs : List.Forall₂ (fun x z => ∃ y, R x y ∧ S y z) xs zs) : ∃ ys, List.Forall₂ R xs ys ∧ List.Forall₂ S ys zs := by
  induction hxs with
  | nil => exact ⟨[],List.Forall₂.nil,List.Forall₂.nil⟩
  | cons hx _ ih =>
    obtain ⟨y,hxy,hyz⟩ := hx
    obtain ⟨ys,hxs,hzs⟩ := ih
    exact ⟨y :: ys,List.Forall₂.cons hxy hxs,List.Forall₂.cons hyz hzs⟩

theorem floatOr_ok {message : String} {v : Json} {q : ℚ} (hq : floatOr h message v = .ok q) : toFloat h.nums v = .ok q := by
  have hfloat : (toFloat h.nums v).mapError CompareError.raised = .ok q := by
    cases v with
    | null => cases hq
    | _ => exact hq
  cases hv : toFloat h.nums v with
  | error text => rw [hv] at hfloat; cases hfloat
  | ok q' =>
    rw [hv] at hfloat
    rw [Except.ok.inj hfloat]

/-- The gap of the entry. -/
def CompareEntry.HasGap (h : Host) (c : CompareEntry) (gap : ℚ) : Prop := toFloat h.nums c.bandGapEv = .ok gap

/-- The energy in eV and the number of atoms of the entry. -/
def CompareEntry.HasEnergy (h : Host) (c : CompareEntry) (energy : ℚ) (n : ℤ) : Prop :=
  ∃ ry, toFloat h.nums c.energyRy = .ok ry ∧ energy = ry * Compiler.ryToEv ∧ toInt h.nums (pyOr c.natoms (.num 0)) = .ok n

/-- The row tells the difference of the gaps and a system whose gap is no narrower, up to the rounding. -/
def GapRow.Tells (a b : String × ℚ) (row : GapRow) : Prop :=
  row.between = (a.1,b.1) ∧ |row.deltaBandGapEv - (b.2 - a.2)| ≤ 1 / 10 ^ 4 ∧
    (row.wider = b.1 ∧ a.2 ≤ b.2 + 1 / 10 ^ 4 ∨ row.wider = a.1 ∧ b.2 ≤ a.2 + 1 / 10 ^ 4)

/-- The row tells the difference of the energies, of the energies per atom where both numbers of atoms are known,
and a system whose energy is no higher, up to the rounding. -/
def EnergyRow.Tells (a b : String × ℚ × ℤ) (row : EnergyRow) : Prop :=
  row.between = (a.1,b.1) ∧ |row.deltaEnergyEv - (b.2.1 - a.2.1)| ≤ 1 / 10 ^ 4 ∧
    (row.lower = b.1 ∧ b.2.1 ≤ a.2.1 + 1 / 10 ^ 4 ∨ row.lower = a.1 ∧ a.2.1 ≤ b.2.1 + 1 / 10 ^ 4) ∧
    if a.2.2 = 0 ∨ b.2.2 = 0 then row.deltaEnergyEvPerAtom = none
    else ∃ d, row.deltaEnergyEvPerAtom = some d ∧ |d - (b.2.1 / b.2.2 - a.2.1 / a.2.2)| ≤ 1 / 10 ^ 4

/-- The rows tell the differences of the systems, each pair once and in their order. -/
def Comparison.Accurate (h : Host) (clean : List CompareEntry) : Comparison → Prop
  | .bandGap _ rows => ∃ systems : List (String × ℚ),
    List.Forall₂ (fun c a => a.1 = c.label ∧ c.HasGap h a.2) clean systems ∧
      List.Forall₂ (fun (p : (String × ℚ) × String × ℚ) row => GapRow.Tells p.1 p.2 row) (pairs systems) rows
  | .energy _ _ rows => ∃ systems : List (String × ℚ × ℤ),
    List.Forall₂ (fun c a => a.1 = c.label ∧ c.HasEnergy h a.2.1 a.2.2) clean systems ∧
      List.Forall₂ (fun (p : (String × ℚ × ℤ) × String × ℚ × ℤ) row => EnergyRow.Tells p.1 p.2 row) (pairs systems) rows

theorem gapItem_ok {c : CompareEntry} {item : GapItem} (hitem : gapItem h c = .ok item) :
    ∃ a : String × ℚ, (a.1 = c.label ∧ c.HasGap h a.2) ∧ item.label = a.1 ∧ item.bandGapEv = round4 a.2 := by
  obtain ⟨gap,hgap,hitem⟩ := bind_eq_ok.mp hitem
  obtain ⟨fermi,_,hitem⟩ := bind_eq_ok.mp hitem
  obtain rfl := Except.ok.inj hitem
  exact ⟨(c.label,gap),⟨rfl,floatOr_ok hgap⟩,rfl,rfl⟩

/-- The rounded energies of a system. -/
def EnergyItem.Holds (a : String × ℚ × ℤ) (item : EnergyItem) : Prop :=
  item.label = a.1 ∧ item.energyEv = round4 a.2.1 ∧
    item.energyEvPerAtom = if a.2.2 = 0 then none else some (round4 (a.2.1 / a.2.2))

theorem energyItem_ok {c : CompareEntry} {item : EnergyItem} (hitem : energyItem h c = .ok item) :
    ∃ a : String × ℚ × ℤ, (a.1 = c.label ∧ c.HasEnergy h a.2.1 a.2.2) ∧ item.Holds a := by
  obtain ⟨ry,hry,hitem⟩ := bind_eq_ok.mp hitem
  obtain ⟨n,hn,hitem⟩ := bind_eq_ok.mp hitem
  obtain rfl := Except.ok.inj hitem
  have hn' : toInt h.nums (pyOr c.natoms (.num 0)) = .ok n := by
    cases hv : toInt h.nums (pyOr c.natoms (.num 0)) with
    | error text => rw [hv] at hn; cases hn
    | ok n' => rw [hv] at hn; rw [Except.ok.inj hn]
  exact ⟨(c.label,ry * Compiler.ryToEv,n),⟨rfl,ry,floatOr_ok hry,rfl,hn'⟩,rfl,rfl,rfl⟩

theorem gapRow_tells {a a' : String × ℚ} {item item' : GapItem} (hitem : item.label = a.1 ∧ item.bandGapEv = round4 a.2)
    (hitem' : item'.label = a'.1 ∧ item'.bandGapEv = round4 a'.2) : (gapRow (item,item')).Tells a a' := by
  have hnear := abs_le.mp (abs_round4_sub_sub_le a'.2 a.2)
  unfold gapRow GapRow.Tells
  simp only [hitem.1,hitem.2,hitem'.1,hitem'.2,round4_sub,true_and]
  refine ⟨abs_round4_sub_sub_le a'.2 a.2,?_⟩
  split_ifs with hwider
  · exact Or.inl ⟨rfl,by linarith [hnear.2]⟩
  · exact Or.inr ⟨rfl,by linarith [hnear.1]⟩

theorem energyRow_tells {a a' : String × ℚ × ℤ} {item item' : EnergyItem} (hitem : item.Holds a) (hitem' : item'.Holds a') :
    (energyRow (item,item')).Tells a a' := by
  obtain ⟨hlabel,henergy,hper⟩ := hitem
  obtain ⟨hlabel',henergy',hper'⟩ := hitem'
  have hnear := abs_le.mp (abs_round4_sub_sub_le a'.2.1 a.2.1)
  unfold energyRow EnergyRow.Tells
  simp only [hlabel,hlabel',henergy,henergy',hper,hper',round4_sub,true_and]
  refine ⟨abs_round4_sub_sub_le a'.2.1 a.2.1,?_,?_⟩
  · split_ifs with hlower
    · exact Or.inl ⟨rfl,by linarith [hnear.1]⟩
    · exact Or.inr ⟨rfl,by linarith [hnear.1]⟩
  · by_cases hn : a.2.2 = 0
    · simp [hn]
    · by_cases hn' : a'.2.2 = 0
      · simp [hn']
      · simpa [hn,hn',round4_sub] using abs_round4_sub_sub_le (a'.2.1 / a'.2.2) (a.2.1 / a.2.2)

theorem compareEntries_accurate {metric : String} {clean : List CompareEntry} {c : Comparison}
    (hok : compareEntries h metric clean = .ok c) : c.Accurate h clean := by
  unfold compareEntries at hok
  split_ifs at hok
  · obtain ⟨items,hitems,hok⟩ := bind_eq_ok.mp hok
    obtain rfl := Except.ok.inj hok
    obtain ⟨systems,hclean,hrows⟩ := exists_forall₂ ((mapM_eq_ok_iff.mp hitems).imp fun _ _ hitem => gapItem_ok hitem)
    refine ⟨systems,hclean,?_⟩
    rw [List.forall₂_map_right_iff]
    exact (pairs_forall₂ hrows).imp fun _ _ hpair => gapRow_tells hpair.1 hpair.2
  · obtain ⟨items,hitems,hok⟩ := bind_eq_ok.mp hok
    obtain rfl := Except.ok.inj hok
    obtain ⟨systems,hclean,hrows⟩ := exists_forall₂ ((mapM_eq_ok_iff.mp hitems).imp fun _ _ hitem => energyItem_ok hitem)
    refine ⟨systems,hclean,?_⟩
    rw [List.forall₂_map_right_iff]
    exact (pairs_forall₂ hrows).imp fun _ _ hpair => energyRow_tells hpair.1 hpair.2

/-- What `analysis.compare` answers is right up to the rounding to four digits. -/
theorem comparison_accurate {args : Dict} {c : Comparison} (hok : analysisCompare h args = .ok c) :
    c.Accurate h (((entriesOf args).filterMap asFields).map (cleaned h)) := by
  unfold analysisCompare at hok
  dsimp only at hok
  split_ifs at hok
  exact compareEntries_accurate hok

def siliconPair : Dict := [("metric",.str "energy"),("entries",.arr [
  .obj [("label",.str "Si"),("energy_ry",.num (-15)),("natoms",.num 2)],
  .obj [("label",.str "Ge"),("energy_ry",.num (-17)),("natoms",.num 2)]])]

theorem silicon_pair_accurate : ∃ c, analysisCompare quietHost siliconPair = .ok c ∧
    c.Accurate quietHost (((entriesOf siliconPair).filterMap asFields).map (cleaned quietHost)) :=
  ⟨_,rfl,comparison_accurate rfl⟩

end Accuracy

section Ledger
variable {h : Host}

theorem rtake_rtake {α : Type*} (xs : List α) {m n : ℕ} (hmn : m ≤ n) : (xs.rtake n).rtake m = xs.rtake m := by
  simp only [List.rtake_eq_reverse_take_reverse,List.reverse_reverse,List.take_take,Nat.min_eq_left hmn]

/-- The ledger keeps the last of the runs, at least twenty where there are as many. -/
def KeepsLast (runs ledger : List Json) : Prop := ∃ k, 20 ≤ k ∧ ledger = runs.rtake k

theorem KeepsLast.append {runs ledger : List Json} (hkeeps : KeepsLast runs ledger) (entry : Json) :
    KeepsLast (runs ++ [entry]) (ledger ++ [entry]) := by
  obtain ⟨k,hk,rfl⟩ := hkeeps
  exact ⟨k + 1,Nat.le_succ_of_le hk,(List.rtake_concat_succ runs k entry).symm⟩

theorem KeepsLast.rtake {runs ledger : List Json} (hkeeps : KeepsLast runs ledger) : KeepsLast runs (ledger.rtake 20) := by
  obtain ⟨k,hk,rfl⟩ := hkeeps
  exact ⟨20,le_refl 20,rtake_rtake runs hk⟩

theorem KeepsLast.last {runs ledger : List Json} (hkeeps : KeepsLast runs ledger) {n : ℕ} (hn : n ≤ 20) :
    ledger.rtake n = runs.rtake n ∧ (n ≤ ledger.length ↔ n ≤ runs.length) := by
  obtain ⟨k,hk,rfl⟩ := hkeeps
  refine ⟨rtake_rtake runs (hn.trans hk),?_⟩
  unfold List.rtake
  rw [List.length_drop]
  omega

theorem handle_ledger {s : SessionState} {runs : List Json} (hs : KeepsLast runs s.ledger) (index : ℕ)
    (toolId description : String) (args data : Dict) : KeepsLast (runs ++
      if toolId = "graph.run" then (graphRunAdds h.factsRaise index description args data).1.toList else [])
    (s.handle h index toolId description args data).ledger := by
  unfold SessionState.handle
  by_cases hrun : toolId = "graph.run"
  · rw [if_pos hrun,if_pos hrun]
    dsimp only
    cases (graphRunAdds h.factsRaise index description args data).1 with
    | none => simpa using hs
    | some entry =>
      have hgrown := (hs.append entry).rtake
      unfold List.rtake at hgrown
      rwa [List.length_append,List.length_singleton] at hgrown
  · rw [if_neg hrun,if_neg hrun,List.append_nil]
    split_ifs <;> exact hs

/-- A step handles its data, or there is none. -/
theorem after_spec {m : Met} {exit : Exit} (hexit : execStep h m.world m.state m.step = some exit) :
    m.state.after h m.index m.step exit =
        m.state.handle h m.index (m.step.tool.getD "") m.step.description (m.args h) (m.data h) ∨
      m.data h = [] ∧ m.state.after h m.index m.step exit = m.state := by
  unfold Met.args Met.data
  rw [hexit]
  cases exit with
  | called args result =>
    unfold SessionState.after
    dsimp only
    rcases result.handled with _ | ⟨source,reply⟩
    · exact Or.inr ⟨rfl,rfl⟩
    · cases reply with
      | obj data => exact Or.inl rfl
      | _ => exact Or.inr ⟨rfl,rfl⟩
  | _ => exact Or.inr ⟨rfl,rfl⟩

theorem isRun_iff {m : Met} : m.isRun = true ↔ m.step.tool.getD "" = "graph.run" := by
  unfold Met.isRun
  rw [decide_eq_true_iff]
  cases m.step.tool <;> simp

theorem after_ledger {m : Met} {exit : Exit} (hexit : execStep h m.world m.state m.step = some exit) {runs : List Json}
    (hs : KeepsLast runs m.state.ledger) : KeepsLast (runs ++ m.noted h) (m.state.after h m.index m.step exit).ledger := by
  rcases after_spec hexit with hafter | ⟨hdata,hafter⟩
  · have hhandled := handle_ledger (h := h) hs m.index (m.step.tool.getD "") m.step.description (m.args h) (m.data h)
    rw [hafter]
    unfold Met.noted
    simpa only [isRun_iff] using hhandled
  · have hnothing : m.noted h = [] := by
      unfold Met.noted
      rw [hdata]
      exact ite_self _
    rw [hafter,hnothing,List.append_nil]
    exact hs

/-- A run of the loop: the ledger before a step keeps the last of the runs noted so far. -/
theorem met_ledger {steps : List (PlanStep × World)} {index : ℕ} {s : SessionState} {runs : List Json}
    (hs : KeepsLast runs s.ledger) {i : ℕ} {m : Met} (hm : (met h index s steps)[i]? = some m) :
    KeepsLast (runs ++ ((met h index s steps).take i).flatMap (Met.noted h)) m.state.ledger := by
  induction steps generalizing index s runs i with
  | nil => simp [met] at hm
  | cons first rest ih =>
    obtain ⟨step,w⟩ := first
    unfold met at hm ⊢
    cases i with
    | zero =>
      obtain rfl := Option.some.inj hm
      simpa using hs
    | succ i =>
      rw [List.getElem?_cons_succ] at hm
      cases hexit : execStep h w s step with
      | none => simp [hexit] at hm
      | some exit =>
        rw [hexit] at hm
        have hbefore := ih (after_ledger (m := ⟨index,s,step,w⟩) hexit hs) hm
        rwa [List.append_assoc] at hbefore

theorem turnEnd_ledger {steps : List (PlanStep × World)} {index : ℕ} {s s' : SessionState} {runs : List Json}
    (hs : KeepsLast runs s.ledger) (hend : turnEnd h index s steps = some s') :
    KeepsLast (runs ++ (met h index s steps).flatMap (Met.noted h)) s'.ledger := by
  induction steps generalizing index s runs with
  | nil =>
    obtain rfl := Option.some.inj hend
    simpa [met] using hs
  | cons first rest ih =>
    obtain ⟨step,w⟩ := first
    unfold turnEnd at hend
    unfold met
    cases hexit : execStep h w s step with
    | none => simp [hexit] at hend
    | some exit =>
      rw [hexit] at hend
      have hafter := ih (after_ledger (m := ⟨index,s,step,w⟩) hexit hs) hend
      rwa [List.append_assoc] at hafter

theorem Session.keeps {runs ledger : List Json} (hsession : Session h runs ledger) : KeepsLast runs ledger := by
  induction hsession with
  | start => exact ⟨20,le_refl 20,rfl⟩
  | turn _ _ hend ih => exact turnEnd_ledger ih hend
  | raised _ _ _ ih => exact ih

/-- `use_last or 2`. -/
def useLast (args : Dict) : Json := if truthyAt args "use_last" then (args.get? "use_last").getD .null else .num 2

theorem prepareCompare_spec {s : SessionState} {args : Dict} {n : ℕ} (hpos : 0 < n)
    (hn : toInt h.nums (useLast args) = .ok (n : ℤ)) : prepareCompare h s args =
      .ready (if n ≤ s.ledger.length then args.set "entries" (.arr (s.ledger.rtake n)) else args) := by
  have hint : toInt h.nums (if truthyAt args "use_last" then (args.get? "use_last").getD .null else .num 2) = .ok (n : ℤ) := hn
  have hpos' : (0 : ℤ) < n := by exact_mod_cast hpos
  unfold prepareCompare
  simp only [hint,Nat.cast_le,lastEntries,if_pos hpos',Int.toNat_natCast]
  split_ifs <;> rfl

/-- Without entries of its own, a comparison gets the last of all runs noted in the session, those of earlier turns
and those of its turn, unless there are too few. -/
theorem compare_last_runs {runs : List Json} {s : SessionState} {steps : List (PlanStep × World)}
    (hsession : Session h runs s.ledger) {m : Met} (hm : m ∈ met h 0 s steps) {args : Dict} {result : StepResult}
    (hcalled : execStep h m.world m.state m.step = some (.called args result))
    (htool : m.step.tool = some "analysis.compare") (hentries : truthyAt m.step.args "entries" = false) {n : ℕ}
    (hpos : 0 < n) (hle : n ≤ 20) (hn : toInt h.nums (useLast m.step.args) = .ok (n : ℤ)) :
    let known := runs ++ ((met h 0 s steps).take m.index).flatMap (Met.noted h)
    args = if n ≤ known.length then m.step.args.set "entries" (.arr (known.rtake n)) else m.step.args := by
  obtain ⟨i,hi⟩ := List.mem_iff_getElem?.mp hm
  obtain ⟨hlast,hlength⟩ := (met_ledger hsession.keeps hi).last hle
  have hindex : m.index = i := by rw [met_index hi,Nat.zero_add]
  rcases execStep_spec hcalled with ⟨_,hexit⟩ | ⟨_,hexit⟩ | ⟨toolId,htool',_,⟨_,hexit⟩ | ⟨_,⟨_,hexit⟩ | ⟨_,hready,hexit⟩⟩⟩
  · cases hexit
  · cases hexit
  · cases hexit
  · cases hexit
  · obtain ⟨rfl,_⟩ := Exit.called.inj hexit
    obtain rfl := Option.some.inj (htool.symm.trans htool')
    have hcompare : prepareStep h m.world m.state m.step.args "analysis.compare" =
        prepareCompare h m.state m.step.args := by
      simp [prepareStep,toolOf,prepareOther,hentries]
    rw [hcompare,prepareCompare_spec hpos hn] at hready
    rw [← Prepared.ready.inj hready,hindex,hlast]
    exact if_congr hlength rfl rfl

def twoRuns : List (PlanStep × World) :=
  [siliconRun (scfReport "succeeded" (-158)),siliconRun (scfReport "succeeded" (-156))]

def compareStep : PlanStep × World := ({ toolId := some "analysis.compare", args := [] },quietWorld)

theorem twoRuns_session : ∃ s, turnEnd thermoHost 0 silentState twoRuns = some s ∧
    Session thermoHost ([] ++ notedIn thermoHost silentState twoRuns) s.ledger :=
  ⟨_,rfl,Session.turn (s := silentState) Session.start rfl rfl⟩

/-- A turn computes silicon twice, and the next one compares. -/
theorem compare_last_two : ∃ s runs args result, Session thermoHost runs s.ledger ∧
    execStep thermoHost quietWorld s compareStep.1 = some (.called args result) ∧
    args = if 2 ≤ runs.length then compareStep.1.args.set "entries" (.arr (runs.rtake 2)) else compareStep.1.args := by
  obtain ⟨s,hend,hsession⟩ := twoRuns_session
  have htwo : toInt thermoHost.nums (useLast compareStep.1.args) = .ok ((2 : ℕ) : ℤ) :=
    congrArg Except.ok (truncate_intCast 2)
  obtain rfl := Option.some.inj hend
  have hmet (s : SessionState) : ⟨0,s,compareStep.1,quietWorld⟩ ∈ met thermoHost 0 s [compareStep] := List.mem_cons_self
  have hcalled := compare_last_runs hsession (hmet _) rfl rfl rfl (by decide) (by decide) htwo
  exact ⟨_,_,_,_,hsession,rfl,by simpa using hcalled⟩

end Ledger

end DftForge.Agent
