import DftForge.Agent.Planning
import DftForge.Agent.Session
import DftForge.Qe.Recovery

/-! # The preparation of a step

`check_self_doping` and `prepare_step_args` with all their branches. Both look into the
arguments before the loop enters its `try`, so that an exception of theirs ends the
session. What they need of the file system, the structure builders and of Python's
conversions is open.
-/
namespace DftForge.Agent
open DftForge.Runtime DftForge.Python DftForge.Engines DftForge.Tools DftForge.Qe

/-- What the steps of a session share. -/
structure Host extends Shell where
  json : JsonText
  nums : Numerals
  /-- The symbols that `build_atoms` or `formula_atoms` gives for a source, unless it raises. -/
  hostSymbols : String → Option (List String)
  /-- `reference_elements`, unless it raises. -/
  referenceElements : String → Option (List String)
  /-- `a > b` of values that are not both numbers, unless it raises. -/
  greater : Json → Json → Option Bool
  /-- Whether the lines about the analysis of a node raise. -/
  factsRaise : Dict → Bool
  /-- `str(session_dir.parent / "ledger.db")`. -/
  ledgerPath : String
  /-- `compare_block`, or the text of its exception. -/
  compareBlock : Dict → Except String String

/-- An entry of `scf_energies`; `step` is the index of the step whose run reported it. -/
structure Energy where
  energyRy : Json
  natoms : Json
  label : String
  step : ℕ

/-- The session context and the `RunState`, as far as steps read them. -/
structure SessionState extends RunState where
  scfEnergies : List Energy := []
  ledger : List Json := []
  /-- `ctx.get("last_result_type", "vc-relax")`. -/
  lastResultType : Json := .str "vc-relax"
  /-- `ctx.get("last_task_type", "T1")`. -/
  lastTaskType : Json := .str "T1"

/-- The world at a step. -/
structure World where
  /-- `Path(text).is_file()`; an overlong name raises. -/
  isFile : String → Option Bool
  /-- `len(ase.io.read(path))`. -/
  atomCount : Json → Option ℕ
  /-- `registry.call` on the arguments. -/
  call : Dict → ToolResult
  /-- The file of `args["output"]` after the call. -/
  file : Dict → Option Content
  /-- The exception of `handle_tool_result` on the arguments and the data. -/
  handle : Dict → Json → Option String

def toolOf (toolId : String) : Tool :=
  if toolId = "structure.import" then .importStructure
  else if toolId = "structure.generate" then .build .generate
  else if toolId = "structure.build2d" then .build .build2d
  else if toolId = "structure.dope" then .build .dope
  else if toolId = "structure.molecule" then .build .molecule
  else if toolId = "structure.reference" then .build .reference
  else if toolId = "graph.run" then .graphRun
  else .other toolId

section Doping
variable (h : Host) (args : Dict)

/-- `_2D_HOST_ELEMENTS.get(kind)`. -/
def hostElements (kind : String) : List String :=
  if kind = "graphene" then ["C"]
  else if kind = "bn" then ["B","N"]
  else if kind = "mos2" then ["Mo","S"]
  else if kind = "ws2" then ["W","S"]
  else if kind = "mose2" then ["Mo","Se"]
  else if kind = "wse2" then ["W","Se"]
  else if kind = "mote2" then ["Mo","Te"]
  else if kind = "wte2" then ["W","Te"]
  else []

/-- `str.upper` of one character; the long s and the dotless i are the only characters
outside ASCII that it maps to one character of ASCII. -/
def upperChar (c : Char) : Char :=
  if c.toNat = 0x17F then 'S' else if c.toNat = 0x131 then 'I' else c.toUpper

/-- `el[:1].upper() + el[1:2].lower()` of the stripped text. -/
def elementOf (text : String) : Text :=
  match strip text.toList with
  | [] => []
  | [c] => [upperChar c]
  | c :: d :: _ => upperChar c :: lowerChar d

/-- The loop over the dopants of a host of one element. -/
def checkDopants (host : String) : List Json → Guard
  | [] => .passes
  | .obj d :: rest =>
    if elementOf (h.textAt d "element" "") = host.toList then .rejects else checkDopants host rest
  | _ :: _ => .raises

/-- `check_self_doping` for `structure.build2d`. -/
def checkBuild2d : Guard :=
  match hostElements (h.textAt args "kind" "") with
  | [host] =>
    match (args.get? "dopants").getD .null with
    | .arr dopants => checkDopants h host dopants
    | v => if truthy v then .raises else .passes
  | _ => .passes

/-- `check_self_doping` for `structure.dope`, which catches its exceptions. -/
def checkDope : Guard :=
  match elementOf (h.textAt args "element" "") with
  | [] => .passes
  | el =>
    match (h.hostSymbols (h.textAt args "source" "")).map List.dedup with
    | some [host] => if el = host.toList then .rejects else .passes
    | _ => .passes

/-- `check_self_doping`. -/
def checkSelfDoping (toolId : String) : Guard :=
  if toolId = "structure.build2d" then checkBuild2d h args
  else if toolId = "structure.dope" then checkDope h args
  else .passes

end Doping

section Prepare
variable (h : Host) (w : World) (s : SessionState) (args : Dict)

/-- The world as the structure branches see it. -/
def World.env : StepEnv where
  guard := .passes
  isFile v := (w.isFile (h.text v)).getD false
  atomCount := w.atomCount
  call := fun _ => { returncode := 0, json := none, error := none, handled := none }

/-- Whether `Path(str(previous_structure)).is_file()` raises, where it is asked. -/
def previousRaises : Bool :=
  !truthy s.builtStructure && truthy s.lastStructureSource && (w.isFile (h.text s.lastStructureSource)).isNone

/-- `d.get(key) is None`. -/
def isNone (d : Dict) (key : String) : Bool :=
  match d.get? key with
  | none | some .null => true
  | _ => false

def endsInJson (text : String) : Bool := decide (".json".toList <:+ text.toList)

/-- `built_structure or ctx.get("last_structure_source")`. -/
def currentStructure : Json := if truthy s.builtStructure then s.builtStructure else s.lastStructureSource

/-- The branches of `structure.analyze`. -/
def prepareAnalyze : Prepared :=
  if endsInJson (h.textAt args "output" "") then
    .ready (args.set "output" (h.path "structure_analysis.json".toList))
  else
    let source := if truthyAt args "source" then h.textAt args "source" "" else ""
    let current := currentStructure s
    let chained := args.set "source" (.str (if truthy current then h.text current else source))
    if source = "__generated__" then .ready chained
    else if truthy current then
      match w.isFile source with
      | none => .raised
      | some true => .ready args
      | some false =>
        match w.isFile (h.text current) with
        | none => .raised
        | some true => .ready chained
        | some false => .ready args
    else .ready args

/-- The branch of `thermo.eads`: the last three energies. -/
def prepareEads : Prepared :=
  match s.scfEnergies.reverse with
  | m :: surface :: adsorbed :: _ =>
    let args := ((args.set "ry_a" adsorbed.energyRy).set "ry_s" surface.energyRy).set "ry_m" m.energyRy
    if truthy adsorbed.natoms && truthy surface.natoms && truthy m.natoms then
      match numberOf adsorbed.natoms, numberOf surface.natoms with
      | some x, some y =>
        if y < x then .ready ((args.set "nat_a" (.num (x - y))).set "nat_mol" m.natoms) else .ready args
      | _, _ =>
        -- what is no number cannot be subtracted either
        match h.greater adsorbed.natoms surface.natoms with
        | some false => .ready args
        | _ => .raised
    else .ready args
  | _ => .ready args

/-- The reference energies by element, from the energies after the first. -/
def referenceEnergies (elements : List String) (energies : List Energy) : Dict :=
  (elements.zip energies).foldl (fun refs (el, e) =>
    refs.set el (.obj [("energy_ry",e.energyRy),("natoms",if truthy e.natoms then e.natoms else .num 1)])) []

/-- The branch of `thermo.formation`: the first energy and the next ones. -/
def prepareFormation : Prepared :=
  let elements := (h.referenceElements (h.textAt args "formula" "")).getD []
  match s.scfEnergies with
  | compound :: rest =>
    if elements.length ≤ rest.length then
      .ready ((args.set "compound_energy" compound.energyRy).set "refs"
        (.obj (referenceEnergies elements rest)))
    else .ready args
  | [] => .ready args

/-- `ledger[-n:]`. -/
def lastEntries (ledger : List Json) (n : ℤ) : List Json :=
  if 0 < n then ledger.drop (ledger.length - n.toNat) else ledger.drop (-n).toNat

/-- The branch of `analysis.compare`; `int` raises for what is no number. -/
def prepareCompare : Prepared :=
  let useLast := if truthyAt args "use_last" then (args.get? "use_last").getD .null else .num 2
  match toInt h.nums useLast with
  | .error _ => .raised
  | .ok n =>
    if n ≤ s.ledger.length then .ready (args.set "entries" (.arr (lastEntries s.ledger n))) else .ready args

/-- The branches that prepare no structure. -/
def prepareOther (toolId : String) : Prepared :=
  if toolId = "structure.analyze" then prepareAnalyze h w s args
  else if toolId = "thermo.eads" && isNone args "ry_a" then prepareEads h s args
  else if toolId = "thermo.formation" && !truthyAt args "refs" then prepareFormation h s args
  else if toolId = "analysis.compare" && !truthyAt args "entries" then prepareCompare h s args
  else if toolId = "input.build" then
    let args := args.set "output" (h.path "input.in".toList)
    .ready (if !truthyAt args "structure" && truthy s.builtStructure then
      args.set "structure" s.builtStructure else args)
  else if toolId = "graph.status" || toolId = "graph.templates" then
    .ready (args.set "workdir" (h.path "graphs".toList))
  else if toolId = "job.submit" then
    .ready ((args.set "input" (h.path "input.in".toList)).set "output" (h.path "job_result.json".toList))
  else if toolId = "result.parse" then
    .ready (setDefault (setDefault args "input" (h.path "input.in".toList)) "type" s.lastResultType)
  else if toolId = "result.verify" then
    .ready (setDefault (setDefault args "input" (h.path "input.in".toList)) "task_type" s.lastTaskType)
  else if toolId = "ledger.query" then .ready (args.set "database" (.str h.ledgerPath))
  else .ready args

/-- `prepare_step_args`. -/
def prepareStep (toolId : String) : Prepared :=
  match toolOf toolId with
  | .other id => prepareOther h w s args id
  | .graphRun =>
    if previousRaises h w s then .raised
    else prepareStepArgs h.toShell (w.env h) s.toRunState .graphRun args
  | tool => prepareStepArgs h.toShell (w.env h) s.toRunState tool args

end Prepare
end DftForge.Agent
