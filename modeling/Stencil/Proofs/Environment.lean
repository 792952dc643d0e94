import Mathlib.Logic.Function.Basic
import Stencil.Proofs.ArgumentLoop
import Stencil.Proofs.Template

/-!
# Variables of a script

What the variables of a script hold when its text is put together. A script is a row of items up to
the line that does that (`Script.items`), and `Script.reach` makes the assignments of these items
one after the other, as the shell does with each of them (`Assignment.Performed`, `LoopPerformed`).
`Script.reach_output` says what comes out: each variable of the template holds the value that was
given last, or its default, or nothing, and each chain holds its result for the value of its base.
What the environment held before does not matter.

There is one exception. The shell counts the options it has read in a variable of its own, which may
hold numbers only. A script that declares this variable as one of its own ends there.
-/

namespace Stencil

namespace Script

/-- The values of variables. One that is not set counts as empty. -/
abbrev Env := String → String

/-! ## Assignments -/

/-- An assignment of a script. -/
inductive Assignment where
  | empty (name : String)
  /-- Takes over the first argument. -/
  | argument (name : String)
  /-- Takes over a text between double quotes if the variable is empty. -/
  | default (name quoted : String)
  | chain (c : Chain)
  deriving DecidableEq, Repr

namespace Assignment

/-- The variable that is assigned to. -/
def target : Assignment → String
  | empty name => name
  | argument name => name
  | default name _ => name
  | chain c => c.name

/-- The line of a script that makes the assignment. -/
def line : Assignment → String
  | empty name => name ++ "=''\n"
  | argument name => name ++ "=\"$1\"\n"
  | default name quoted => name ++ "=$\x7b" ++ name ++ ":-\"" ++ quoted ++ "\"\x7d\n"
  | chain c => c.name ++ "=" ++ chainExpression c ++ "\n"

variable (results : Chain → String → String) (argument : String)

/-- The value that is assigned. The result of a chain is some function of the value of its base. -/
def value (env : Env) : Assignment → Option String
  | empty _ => some ""
  | .argument _ => some argument
  | default name quoted => if env name = "" then Quotation.expand env quoted else some (env name)
  | chain c => some (results c (env c.base))

/-- The environment after the assignment, if the variable may hold the value. -/
def run (env : Env) (a : Assignment) : Option Env :=
  ((a.value results argument env).filter fun x =>
    Shell.isAllowed a.target.toList (Shell.scanned x)).map
    (Function.update env a.target)

/-- Only one variable is particular about its value. -/
lemma run_of_ne (a : Assignment) (h : a.target ≠ "OPTIND") (env : Env) :
    a.run results argument env =
      (a.value results argument env).map (Function.update env a.target) := by
  have hne : a.target.toList ≠ Shell.optionIndex := fun e => h (String.toList_inj.mp e)
  rw [run]
  cases a.value results argument env with
  | none => rfl
  | some x => rw [Option.filter_some, if_pos (Shell.isAllowed_of_ne hne _)]

/-- A default that is written out between double quotes is taken over as it is. -/
lemma value_default (env : Env) (name x : String) :
    (default name (Escape.escape x)).value results argument env =
      some (if env name = "" then x else env name) := by
  rw [value, Quotation.expand_escape]
  split <;> rfl

/-! ## Assignments in the shell -/

/-- The variables of the shell hold what the environment says. -/
def Shows (w : Shell.World) (env : Env) : Prop :=
  ∀ n, Name.Valid n → (w.vars.lookup n.toList).getD [] = Shell.scanned (env n)

/-- The shell can make the assignment: its variables hold what the environment says, its first
argument is the one to take over, and the variable may be set. A value from outside holds no
zero. -/
structure Ready (w : Shell.World) (env : Env) (argument : String) (a : Assignment) : Prop where
  holds : Shows w env
  args : ∀ n, a = .argument n → w.args.head? = some (Shell.scanned argument)
  free : a.target.toList ∉ w.fixed
  noZero : '\x00' ∉ (env a.target).toList

/-- The shell reads the line of the assignment as one command, which does to its variables what
`run` does to the environment, and ends the script where `run` gives none. -/
def Performed (a : Assignment) : Prop :=
  ∀ (results : Chain → String → String) (argument : String) (env : Env) (w : Shell.World),
    Ready w env argument a →
    match a.run results argument env with
    | some env' =>
      Shell.Performs w (Shell.scanned a.line) fun w' => Shows w' env' ∧ w'.args = w.args ∧
        w'.fixed = w.fixed
    | none => Shell.Halts w (Shell.scanned a.line)

/-- Setting a variable in the shell sets it in the environment. -/
lemma Shows.of_sets {w w' : Shell.World} {env : Env} {n value : String} (h : Shows w env)
    (hset : Shell.Sets w n.toList (Shell.scanned value) w') :
    Shows w' (Function.update env n value) := by
  intro m hm
  rw [hset.lookup]
  by_cases hmn : m = n
  · rw [if_pos (congrArg _ hmn), hmn, Function.update_self]
    rfl
  · rw [if_neg (mt String.toList_inj.mp hmn), Function.update_of_ne hmn]
    exact h m hm

/-- An assignment is performed if its line assigns its value. -/
lemma performed_of_assigns {a : Assignment} (h :
    ∀ (results : Chain → String → String) (argument : String) (env : Env)
      (w : Shell.World), Ready w env argument a →
        ∃ value, a.value results argument env = some value ∧
        Shell.Assigns w (Shell.scanned a.line) a.target.toList
          (Shell.scanned value)) : a.Performed := by
  intro results argument env w hw
  obtain ⟨value, hvalue, hassigns⟩ := h results argument env w hw
  unfold Shell.Assigns at hassigns
  rw [run, hvalue]
  by_cases hallowed : Shell.isAllowed a.target.toList (Shell.scanned value) = true
  · rw [if_pos hallowed] at hassigns
    rw [Option.filter_some, if_pos hallowed]
    exact hassigns.mono fun w' hset => ⟨hw.holds.of_sets hset, hset.args, hset.fixed⟩
  · rw [if_neg hallowed] at hassigns
    rw [Option.filter_some, if_neg hallowed]
    exact hassigns

variable {n : String}

/-- The shell makes a variable empty. -/
lemma performed_empty (hn : Name.Valid n) : (empty n).Performed := by
  refine performed_of_assigns fun results argument env w hw => ⟨"", rfl, ?_⟩
  delta line
  simp (disch := first | with_reducible rfl | decide) only [Shell.scanned_append,
    Shell.scanned_literal, Shell.scanned_of_valid hn]
  exact Shell.Assigns.empty (Shell.isName_of_valid hn) hw.free

/-- The shell ends at the declaration of the variable that holds numbers only. -/
lemma halts_empty_index {w : Shell.World} (hfree : "OPTIND".toList ∉ w.fixed) :
    Shell.Halts w (Shell.scanned (empty "OPTIND").line) := by
  have hline : Shell.scanned (empty "OPTIND").line =
      Shell.optionIndex ++ ['=', '\x27', '\x27', '\n'] := by decide
  have hassigns : Shell.Assigns w _ Shell.optionIndex [] := Shell.Assigns.empty (by decide) hfree
  unfold Shell.Assigns at hassigns
  rw [hline]
  rwa [if_neg (by decide)] at hassigns

/-- The shell takes over its first argument. -/
lemma performed_argument (hn : Name.Valid n) : (Assignment.argument n).Performed := by
  refine performed_of_assigns fun results argument env w hw => ⟨argument, rfl, ?_⟩
  delta line
  simp (disch := first | with_reducible rfl | decide) only [Shell.scanned_append,
    Shell.scanned_literal, Shell.scanned_of_valid hn]
  exact Shell.Assigns.argument (Shell.isName_of_valid hn) hw.free (hw.args n rfl)

/-- The shell takes over a default that is written out between double quotes. -/
lemma performed_default (hn : Name.Valid n) (x : String) :
    (default n (Escape.escape x)).Performed := by
  refine performed_of_assigns fun results argument env w hw =>
    ⟨_, value_default results argument env n x, ?_⟩
  -- Without zeros, what is empty for the shell is empty.
  have hempty : Shell.scanned (env n) = [] ↔ env n = "" := by
    rw [Shell.scanned_eq_raw (show '\x00' ∉ (env n).toList from hw.noZero)]
    refine ⟨fun h => String.toList_inj.mp (Shell.raw_inj h), fun h => ?_⟩
    rw [h]
    rfl
  have h := Shell.Assigns.default (w := w) (Shell.isName_of_valid hn) hw.free (Shell.scanned x)
  rw [hw.holds n hn] at h
  simp only [hempty] at h
  rw [apply_ite Shell.scanned]
  delta line
  dsimp only
  simp (disch := first | with_reducible rfl | decide) only [Shell.scanned_append,
    Shell.scanned_literal, Shell.scanned_escape, Shell.scanned_of_valid hn, List.append_assoc,
    List.cons_append, List.nil_append]
  exact h

end Assignment

/-! ## Scripts as rows of items -/

/-- An item of a script. -/
inductive Item where
  /-- Code that assigns nothing to the variables of a template. -/
  | code (text : String)
  | assign (a : Assignment)
  /-- The loop over the arguments, which takes the values of variables. -/
  | loop (names : List String) (text : String)
  /-- The line that puts the text of the template together. -/
  | output (skeleton : String)
  deriving DecidableEq, Repr

namespace Item

/-- The text of the item. -/
def written : Item → String
  | code text => text
  | assign a => a.line
  | loop _ text => text
  | output skeleton => "\nout=\"" ++ skeleton ++ "\""

end Item

section

variable (results : Chain → String → String)

/-- The loop over the arguments, which come in pairs of a variable and its value. Each turn takes a
pair. -/
def takeOptions (names : List String) : List (String × String) → Env → Option Env
  | [], env => some env
  | (n, value) :: pairs, env =>
    if n ∈ names then ((Assignment.argument n).run results value env).bind (takeOptions names pairs)
    else none

/-- The environment in which the text of the template is put together, if that line is reached. -/
def reach (pairs : List (String × String)) : List Item → Env → Option Env
  | [], _ => none
  | .code _ :: rest, env => reach pairs rest env
  | .assign a :: rest, env => (a.run results "" env).bind (reach pairs rest)
  | .loop names _ :: rest, env => (takeOptions results names pairs env).bind (reach pairs rest)
  | .output _ :: _, env => some env

end

section

variable (lib : FilterLibrary) (name : String) (t : Template) (path : Option String)

/-- The assignments of the defaults, in the order of the variables. -/
def defaultAssignments : List Assignment :=
  t.vars.filterMap fun v => v.default.map (.default v.name)

/-- The part of the script with the defaults. -/
def defaultItems : List Item :=
  match defaultAssignments t with
  | [] => []
  | a :: as => .code "\n# set variable defaults\n" :: (a :: as).map .assign

/-- The part of the script with the filters and the chains. -/
def filterItems : List Item :=
  if t.chains.isEmpty then []
  else
    .code ("\n# filters\n" ++ lib.render t.usedFilters ++ "\n# filtered variables\n") ::
      (t.chains.map .chain).map .assign

/-- The part of the script up to the declarations. -/
def declarationItems : List Item :=
  .code (preamble ++ guardOpen ++ "\n# variable declarations\n") ::
    (t.variableNames.map .empty).map .assign

/-- The loop over the arguments, the defaults and the checks. -/
def argumentItems : List Item :=
  [.code "\n# parse arguments\n", .loop t.variableNames (argumentLoop name t path ++ "\n")] ++
    defaultItems t ++ [.code (checks t)]

/-- A script up to the line that puts the text of its template together. -/
def items : List Item :=
  declarationItems t ++ argumentItems name t path ++ (filterItems lib t ++ [.output t.skeleton])

end

/-- The items as they stand in the script, one after the other. -/
def renderItems (is : List Item) : String :=
  String.join (is.map Item.written)

section

variable {lib : FilterLibrary} {name : String} {t : Template} {path : Option String}

/-- Items are written one after the other. -/
lemma renderItems_append (is js : List Item) :
    renderItems (is ++ js) = renderItems is ++ renderItems js := by
  rw [renderItems, List.map_append, String.join_append]
  rfl

/-- The first item is written first. -/
lemma renderItems_cons (i : Item) (is : List Item) :
    renderItems (i :: is) = i.written ++ renderItems is := by
  rw [renderItems, List.map_cons, String.join_cons]
  rfl

/-- Assignments are written as their lines. -/
lemma renderItems_assign (as : List Assignment) :
    renderItems (as.map .assign) = String.join (as.map Assignment.line) := by
  rw [renderItems, List.map_map]
  rfl

/-- The items of the defaults are written as this part of the script. -/
lemma renderItems_defaultItems : renderItems (defaultItems t) = defaults t := by
  have hlines : t.vars.filterMap defaultLine = (defaultAssignments t).map Assignment.line := by
    rw [defaultAssignments, List.map_filterMap]
    refine List.filterMap_congr fun v _ => ?_
    rw [defaultLine, Option.map_map]
    rfl
  unfold defaultItems defaults
  rw [hlines]
  cases defaultAssignments t with
  | nil => rfl
  | cons a as =>
    rw [renderItems_cons, renderItems_assign]
    rfl

/-- The items of the filters are written as this part of the script. -/
lemma renderItems_filterItems : renderItems (filterItems lib t) = filters lib t := by
  delta filterItems filters
  split
  · rfl
  · rw [renderItems_cons, renderItems_assign, List.map_map]
    rfl

/-- The output of a script begins with the text of the file. -/
lemma exists_output_eq : ∃ rest, output t path = "\nout=\"" ++ t.skeleton ++ "\"" ++ rest := by
  have hclose : "\"\nif [ -t 1 ] ; then\n" = "\"" ++ "\nif [ -t 1 ] ; then\n" := rfl
  delta output
  dsimp only
  rw [hclose]
  simp only [String.append_assoc]
  exact ⟨_, rfl⟩

/-- A script begins with its items. -/
lemma exists_compile_eq_renderItems :
    ∃ rest, compile lib name t path = renderItems (items lib name t path) ++ rest := by
  have hdeclarations : declarations t =
      "\n# variable declarations\n" ++
        String.join ((t.variableNames.map Assignment.empty).map Assignment.line) := by
    delta declarations Template.variableNames
    rw [List.map_map, List.map_map]
    rfl
  have hnil : renderItems [] = "" := rfl
  have hcode (text : String) : Item.written (.code text) = text := rfl
  have hloop (names : List String) (text : String) : Item.written (.loop names text) = text := rfl
  -- The line of the output is the last item. What it does with the text comes after the items.
  obtain ⟨rest, hrest⟩ : ∃ rest, output t path = Item.written (.output t.skeleton) ++ rest :=
    exists_output_eq
  refine ⟨rest ++ guardClose ++ editing t path, ?_⟩
  delta compile items declarationItems argumentItems
  rw [hrest, hdeclarations, arguments_eq]
  simp only [renderItems_append, renderItems_cons, renderItems_assign, renderItems_defaultItems,
    renderItems_filterItems, hcode, hloop, hnil, String.append_assoc, String.append_empty]

/-! ## Making the assignments -/

variable {results : Chain → String → String} {pairs : List (String × String)} {env : Env}

/-- Makes assignments one after the other. -/
def runAll (results : Chain → String → String) (as : List Assignment) (env : Env) : Option Env :=
  as.foldlM (fun env a => a.run results "" env) env

/-- Assignments are made before what stands behind them. -/
lemma reach_assign (as : List Assignment) (rest : List Item) (env : Env) :
    reach results pairs (as.map .assign ++ rest) env =
      (runAll results as env).bind (reach results pairs rest) := by
  induction as generalizing env with
  | nil => rfl
  | cons a as ih =>
    rw [List.map_cons, List.cons_append, reach, runAll, List.foldlM_cons]
    cases h : a.run results "" env with
    | none => rfl
    | some env' => exact ih env'

/-- Declared variables are empty, whatever they held before. -/
lemma runAll_empty {names : List String} (hnames : "OPTIND" ∉ names) (env : Env) :
    runAll results (names.map .empty) env = some fun n => if n ∈ names then "" else env n := by
  induction names generalizing env with
  | nil => simp [runAll]
  | cons m names ih =>
    rw [List.mem_cons, not_or] at hnames
    rw [List.map_cons, runAll, List.foldlM_cons,
      Assignment.run_of_ne _ _ (.empty m) (Ne.symm hnames.1)]
    refine (ih hnames.2 _).trans (congrArg some (funext fun n => ?_))
    by_cases hn : n = m
    · simp [Assignment.target, hn]
    · simp [Assignment.target, hn]

/-- The variable that holds numbers only cannot be declared. -/
lemma runAll_empty_eq_none {names : List String} (hnames : "OPTIND" ∈ names) (env : Env) :
    runAll results (names.map .empty) env = none := by
  induction names generalizing env with
  | nil => cases hnames
  | cons m names ih =>
    rw [List.map_cons, runAll, List.foldlM_cons]
    by_cases hm : m = "OPTIND"
    · subst hm
      rfl
    · rw [Assignment.run_of_ne _ _ (.empty m) hm]
      exact ih ((List.mem_cons.mp hnames).resolve_left (Ne.symm hm)) _

/-- Each variable that was given holds the last value given for it. -/
lemma takeOptions_eq {names : List String} (hnames : "OPTIND" ∉ names)
    (h : ∀ p ∈ pairs, p.1 ∈ names) (env : Env) :
    takeOptions results names pairs env = some fun n => (pairs.reverse.lookup n).getD (env n) := by
  induction pairs generalizing env with
  | nil => rfl
  | cons p pairs ih =>
    obtain ⟨m, value⟩ := p
    have hm : m ∈ names := h (m, value) (by simp)
    rw [takeOptions, if_pos hm, Assignment.run_of_ne _ _ (.argument m) fun e => hnames (e ▸ hm)]
    refine (ih (fun q hq => h q (by simp [hq])) _).trans (congrArg some (funext fun n => ?_))
    rw [List.reverse_cons, List.lookup_append]
    cases pairs.reverse.lookup n with
    | some x => rfl
    | none =>
      by_cases hn : n = m
      · simp [Assignment.target, hn]
      · simp [Assignment.target, hn]

/-- A variable that is empty takes its default. -/
lemma runAll_default (defaults : String → Option String) {names : List String}
    (hnames : "OPTIND" ∉ names) (env : Env) :
    runAll results
        (names.filterMap fun n => (defaults n).map fun x => .default n (Escape.escape x)) env =
      some fun n => if n ∈ names ∧ env n = "" then (defaults n).getD "" else env n := by
  induction names generalizing env with
  | nil => simp [runAll]
  | cons m names ih =>
    rw [List.mem_cons, not_or] at hnames
    have ih := ih hnames.2
    rw [List.filterMap_cons]
    cases hm : defaults m with
    | none =>
      refine (ih env).trans (congrArg some (funext fun n => ?_))
      by_cases hn : n = m
      · subst hn
        by_cases hempty : env n = ""
        · simp [hm, hempty]
        · simp [hempty]
      · simp [hn]
    | some x =>
      have hrun : (Assignment.default m (Escape.escape x)).run results "" env =
          some (Function.update env m (if env m = "" then x else env m)) := by
        rw [Assignment.run_of_ne _ _ (.default m _) (Ne.symm hnames.1), Assignment.value_default]
        rfl
      rw [Option.map_some, runAll, List.foldlM_cons, hrun]
      refine (ih _).trans (congrArg some (funext fun n => ?_))
      by_cases hn : n = m
      · subst hn
        by_cases hempty : env n = ""
        · simp [hm, hempty]
        · simp [hempty]
      · simp [hn]

/-- Chains hold their results if no result is the base of another chain. -/
lemma runAll_chain {cs : List Chain} (hjoined : ∀ c ∈ cs, '_' ∈ c.name.toList)
    (hnodup : (cs.map Chain.name).Nodup) (hbase : ∀ c ∈ cs, c.base ∉ cs.map Chain.name)
    (env : Env) :
    ∃ env', runAll results (cs.map .chain) env = some env' ∧
      (∀ c ∈ cs, env' c.name = results c (env c.base)) ∧
      ∀ n ∉ cs.map Chain.name, env' n = env n := by
  induction cs generalizing env with
  | nil => exact ⟨env, rfl, by simp, by simp⟩
  | cons c cs ih =>
    rw [List.map_cons, List.nodup_cons] at hnodup
    have hfree : ∀ c' ∈ cs, c'.base ∉ cs.map Chain.name :=
      fun c' hc' hmem => hbase c' (by simp [hc']) (List.mem_cons_of_mem _ hmem)
    -- The other chains leave this result alone, and it is the base of none of them.
    obtain ⟨env', hrun, hresults, hother⟩ :=
      ih (fun c' hc' => hjoined c' (by simp [hc'])) hnodup.2 hfree
      (Function.update env c.name (results c (env c.base)))
    have hne : c.name ≠ "OPTIND" := by
      intro e
      have hmem := hjoined c (by simp)
      rw [e] at hmem
      exact absurd hmem (by decide)
    refine ⟨env', ?_, ?_, ?_⟩
    · rw [List.map_cons, runAll, List.foldlM_cons, Assignment.run_of_ne _ _ (.chain c) hne]
      exact hrun
    · rw [List.forall_mem_cons]
      constructor
      · rw [hother c.name hnodup.1, Function.update_self]
      · intro c' hc'
        have hne : c'.base ≠ c.name := fun e => hbase c' (by simp [hc']) (by simp [e])
        rw [hresults c' hc', Function.update_of_ne hne]
    · intro n hn
      rw [List.map_cons, List.mem_cons, not_or] at hn
      rw [hother n hn.2, Function.update_of_ne hn.1]

/-- The defaults are assigned before what stands behind them. -/
lemma reach_defaultItems (rest : List Item) (env : Env) :
    reach results pairs (defaultItems t ++ rest) env =
      (runAll results (defaultAssignments t) env).bind (reach results pairs rest) := by
  unfold defaultItems
  cases defaultAssignments t with
  | nil => rfl
  | cons a as => exact reach_assign (a :: as) rest env

/-- The chains are computed before what stands behind them. -/
lemma reach_filterItems (rest : List Item) (env : Env) :
    reach results pairs (filterItems lib t ++ rest) env =
      (runAll results (t.chains.map .chain) env).bind (reach results pairs rest) := by
  unfold filterItems
  cases t.chains with
  | nil => rfl
  | cons c cs => exact reach_assign ((c :: cs).map .chain) rest env

/-- What a variable of a template holds in the end: the last value given for it unless that is
empty, or else its default, or else nothing. -/
def finalValue (defaults : String → Option String) (pairs : List (String × String)) (n : String) :
    String :=
  let given := (pairs.reverse.lookup n).getD ""
  if given = "" then (defaults n).getD "" else given

variable {defaults descriptions : String → Option String}

/-- The defaults are assigned in the order of the variables, with special characters escaped. -/
lemma defaultAssignments_annotate :
    defaultAssignments (t.annotate defaults descriptions) =
      t.variableNames.filterMap fun n => (defaults n).map fun x =>
        .default n (Escape.escape x) := by
  rw [defaultAssignments, Template.annotate, List.filterMap_map, Template.variableNames,
    List.filterMap_map]
  refine List.filterMap_congr fun v _ => ?_
  simp only [Function.comp_apply, Variable.annotate, Option.map_map]
  rfl

/-- The environment in which the text of a template is put together. -/
lemma reach_items (h : t.WellNamed) (hindex : "OPTIND" ∉ t.variableNames)
    (hpairs : ∀ p ∈ pairs, p.1 ∈ t.variableNames) (env : Env) :
    ∃ env',
      reach results pairs (items lib name (t.annotate defaults descriptions) path) env = some env' ∧
      (∀ n ∈ t.variableNames, env' n = finalValue defaults pairs n) ∧
      (∀ c ∈ t.chains, env' c.name = results c (env' c.base)) ∧
      ∀ n ∉ t.variableNames ++ t.chains.map Chain.name, env' n = env n := by
  have hfree {n : String} (hn : n ∈ t.variableNames) : n ∉ t.chains.map Chain.name := by
    intro hmem
    obtain ⟨c, hc, rfl⟩ := List.mem_map.mp hmem
    exact h.free c hc hn
  -- The chains start from what the declarations, the arguments and the defaults made, in this
  -- order.
  obtain ⟨env', hchains, hresults, hother⟩ :=
    runAll_chain h.joined h.distinct (fun c hc => hfree (h.base c hc))
    fun n => if n ∈ t.variableNames ∧
      (pairs.reverse.lookup n).getD (if n ∈ t.variableNames then "" else env n) = ""
      then (defaults n).getD ""
      else (pairs.reverse.lookup n).getD (if n ∈ t.variableNames then "" else env n)
  refine ⟨env', ?_, fun n hn => ?_, fun c hc => ?_, fun n hn => ?_⟩
  · have hnames : (t.annotate defaults descriptions).variableNames = t.variableNames :=
      Template.variableNames_annotate
    delta items declarationItems argumentItems
    simp only [List.append_assoc, List.cons_append, List.nil_append, hnames]
    rw [reach, reach_assign, runAll_empty hindex, Option.bind_some, reach, reach,
      takeOptions_eq hindex hpairs, Option.bind_some, reach_defaultItems,
      defaultAssignments_annotate, runAll_default defaults hindex, Option.bind_some, reach,
      reach_filterItems]
    rw [Template.chains_annotate, hchains]
    rfl
  · rw [hother n (hfree hn), finalValue]
    simp only [hn, true_and, if_true]
  · rw [hresults c hc, hother c.base (hfree (h.base c hc))]
  · rw [List.mem_append, not_or] at hn
    have hgiven : pairs.reverse.lookup n = none := by
      rw [List.lookup_eq_none_iff]
      intro p hp
      have hne : n ≠ p.1 := fun e => hn.1 (e ▸ hpairs p (List.mem_reverse.mp hp))
      simpa using hne
    rw [hother n hn.2]
    simp [hn.1, hgiven]

/-- A script does not get past the declaration of the variable that holds numbers only. -/
lemma reach_items_eq_none (hindex : "OPTIND" ∈ t.variableNames) (env : Env) :
    reach results pairs (items lib name t path) env = none := by
  delta items declarationItems
  simp only [List.append_assoc, List.cons_append]
  rw [reach, reach_assign, runAll_empty_eq_none hindex]
  rfl

/-! ## What is assigned where -/

namespace Item

/-- The names that an item assigns to. -/
def targets : Item → List String
  | assign a => [a.target]
  | loop names _ => names
  | _ => []

/-- What the later item assigns leaves alone what the earlier one assigned. Options and defaults are
there to set a variable again, but no result of a chain. -/
def Spares (earlier later : Item) : Prop :=
  match later with
  | loop _ _ => ∀ c, earlier ≠ assign (.chain c)
  | assign (.default _ _) => ∀ c, earlier ≠ assign (.chain c)
  | assign a => a.target ∉ earlier.targets
  | _ => True

end Item

/-- An item of the defaults is a text or an assignment of a default. -/
lemma mem_defaultItems {i : Item} (hi : i ∈ defaultItems t) :
    (∃ text, i = .code text) ∨
    ∃ v ∈ t.vars, ∃ d, v.default = some d ∧ i = .assign (.default v.name d) := by
  unfold defaultItems at hi
  split at hi
  · cases hi
  · rename_i a as has
    rw [← has] at hi
    rcases List.mem_cons.mp hi with rfl | hi
    · exact .inl ⟨_, rfl⟩
    · obtain ⟨b, hb, rfl⟩ := List.mem_map.mp hi
      obtain ⟨v, hv, hvb⟩ := List.mem_filterMap.mp hb
      obtain ⟨d, hd, rfl⟩ := Option.map_eq_some_iff.mp hvb
      exact .inr ⟨v, hv, d, hd, rfl⟩

/-- An item of the filters is a text or an assignment of a chain. -/
lemma mem_filterItems {i : Item} (hi : i ∈ filterItems lib t) :
    (∃ text, i = .code text) ∨ ∃ c ∈ t.chains, i = .assign (.chain c) := by
  unfold filterItems at hi
  split at hi
  · cases hi
  · rcases List.mem_cons.mp hi with rfl | hi
    · exact .inl ⟨_, rfl⟩
    · rw [List.map_map] at hi
      obtain ⟨c, hc, rfl⟩ := List.mem_map.mp hi
      exact .inr ⟨c, hc, rfl⟩

/-- An item of the declarations is a text or an assignment of an empty value. -/
lemma mem_declarationItems {i : Item} (hi : i ∈ declarationItems t) :
    (∃ text, i = .code text) ∨ ∃ n ∈ t.variableNames, i = .assign (.empty n) := by
  delta declarationItems at hi
  rcases List.mem_cons.mp hi with rfl | hi
  · exact .inl ⟨_, rfl⟩
  · rw [List.map_map] at hi
    obtain ⟨n, hn, rfl⟩ := List.mem_map.mp hi
    exact .inr ⟨n, hn, rfl⟩

/-- An item behind the declarations is a text, the loop or an assignment of a default. -/
lemma mem_argumentItems {i : Item} (hi : i ∈ argumentItems name t path) :
    (∃ text, i = .code text) ∨ i = .loop t.variableNames (argumentLoop name t path ++ "\n") ∨
      ∃ v ∈ t.vars, ∃ d, v.default = some d ∧ i = .assign (.default v.name d) := by
  delta argumentItems at hi
  simp only [List.mem_append, List.mem_cons, List.not_mem_nil, or_false] at hi
  rcases hi with ((rfl | rfl) | hi) | rfl
  · exact .inl ⟨_, rfl⟩
  · exact .inr (.inl rfl)
  · rcases mem_defaultItems hi with hcode | hdefault
    · exact .inl hcode
    · exact .inr (.inr hdefault)
  · exact .inl ⟨_, rfl⟩

/-- What comes before the filters assigns to variables only, and not by a chain. -/
lemma targets_subset {i : Item} (hi : i ∈ declarationItems t ++ argumentItems name t path) :
    (∀ n ∈ i.targets, n ∈ t.variableNames) ∧ ∀ c, i ≠ .assign (.chain c) := by
  rcases List.mem_append.mp hi with hi | hi
  · rcases mem_declarationItems hi with ⟨_, rfl⟩ | ⟨n, hn, rfl⟩
    · exact ⟨nofun, nofun⟩
    · exact ⟨fun _ hm => List.mem_singleton.mp hm ▸ hn, nofun⟩
  · rcases mem_argumentItems hi with ⟨_, rfl⟩ | rfl | ⟨v, hv, d, -, rfl⟩
    · exact ⟨nofun, nofun⟩
    · exact ⟨fun _ hn => hn, nofun⟩
    · exact ⟨fun _ hm => List.mem_singleton.mp hm ▸ List.mem_map_of_mem hv, nofun⟩

/-- The declarations leave each other alone. -/
lemma pairwise_declarationItems (hnodup : t.variableNames.Nodup) :
    (declarationItems t).Pairwise Item.Spares := by
  delta declarationItems
  refine .cons (fun j hj => ?_) ?_
  · rw [List.map_map] at hj
    obtain ⟨m, -, rfl⟩ := List.mem_map.mp hj
    exact List.not_mem_nil
  · rw [List.pairwise_map, List.pairwise_map]
    exact hnodup.imp fun hne hmem => hne (List.mem_singleton.mp hmem).symm

/-- The chains leave each other alone. -/
lemma pairwise_filterItems (hnodup : (t.chains.map Chain.name).Nodup) :
    (filterItems lib t).Pairwise Item.Spares := by
  unfold filterItems
  split
  · exact .nil
  · refine .cons (fun j hj => ?_) ?_
    · rw [List.map_map] at hj
      obtain ⟨c, -, rfl⟩ := List.mem_map.mp hj
      exact List.not_mem_nil
    · rw [List.pairwise_map, List.pairwise_map]
      exact (List.pairwise_map.mp hnodup).imp fun hne hmem => hne (List.mem_singleton.mp hmem).symm

/-- No assignment of a script undoes one before it. -/
lemma pairwise_items (h : t.WellNamed) : (items lib name t path).Pairwise Item.Spares := by
  -- Options and defaults come before the chains.
  have harguments : ∀ i ∈ declarationItems t ++ argumentItems name t path,
    ∀ j ∈ argumentItems name t path,
      Item.Spares i j := by
    intro i hi j hj
    rcases mem_argumentItems hj with ⟨_, rfl⟩ | rfl | ⟨v, -, d, -, rfl⟩
    · trivial
    · exact (targets_subset hi).2
    · exact (targets_subset hi).2
  have houtput (i : Item) : Item.Spares i (.output t.skeleton) := trivial
  delta items
  refine List.pairwise_append.mpr ⟨List.pairwise_append.mpr
    ⟨pairwise_declarationItems h.nodup, ?_, ?_⟩,
    List.pairwise_append.mpr ⟨pairwise_filterItems h.distinct, List.pairwise_singleton _ _, ?_⟩, ?_⟩
  · exact List.pairwise_of_forall_mem_list fun i hi => harguments i (List.mem_append_right _ hi)
  · exact fun i hi => harguments i (List.mem_append_left _ hi)
  · exact fun i _ j hj => List.mem_singleton.mp hj ▸ houtput i
  · intro i hi j hj
    rcases List.mem_append.mp hj with hj | hj
    · rcases mem_filterItems hj with ⟨_, rfl⟩ | ⟨c, hc, rfl⟩
      · trivial
      · exact fun hmem => h.free c hc ((targets_subset hi).1 _ hmem)
    · exact List.mem_singleton.mp hj ▸ houtput i

/-- Each chain has its line in a script. -/
lemma chain_mem_items {c : Chain} (hc : c ∈ t.chains) :
    .assign (.chain c) ∈ items lib name t path := by
  have hsome : ¬t.chains.isEmpty = true := by
    rw [List.isEmpty_iff]
    exact List.ne_nil_of_mem hc
  delta items
  unfold filterItems
  rw [if_neg hsome, List.map_map]
  exact List.mem_append_right _
    (List.mem_append_left _ (List.mem_cons_of_mem _ (List.mem_map_of_mem hc)))

/-- Each variable has its declaration in a script. -/
lemma empty_mem_items {n : String} (hn : n ∈ t.variableNames) :
    .assign (.empty n) ∈ items lib name t path := by
  delta items declarationItems
  rw [List.map_map]
  exact List.mem_append_left _
    (List.mem_append_left _ (List.mem_cons_of_mem _ (List.mem_map_of_mem hn)))

/-- A script has one loop. -/
lemma loop_mem_items {names : List String} {text : String}
    (h : .loop names text ∈ items lib name t path) :
    names = t.variableNames ∧ text = argumentLoop name t path ++ "\n" := by
  delta items at h
  rcases List.mem_append.mp h with h | h
  · rcases List.mem_append.mp h with h | h
    · rcases mem_declarationItems h with ⟨_, e⟩ | ⟨_, -, e⟩ <;> cases e
    · rcases mem_argumentItems h with ⟨_, e⟩ | e | ⟨_, -, _, -, e⟩
      · cases e
      · cases e
        exact ⟨rfl, rfl⟩
      · cases e
  · rcases List.mem_append.mp h with h | h
    · rcases mem_filterItems h with ⟨_, e⟩ | ⟨_, -, e⟩ <;> cases e
    · cases List.mem_singleton.mp h

/-- The line of an assignment stands in the script. -/
lemma exists_compile_eq_assign {a : Assignment} (h : .assign a ∈ items lib name t path) :
    ∃ before after, compile lib name t path = before ++ a.line ++ after := by
  obtain ⟨rest, hrest⟩ : ∃ rest,
      compile lib name t path = renderItems (items lib name t path) ++ rest :=
    exists_compile_eq_renderItems
  obtain ⟨before, after, hitems⟩ := List.append_of_mem h
  refine ⟨renderItems before, renderItems after ++ rest, ?_⟩
  rw [hrest, hitems, renderItems_append, renderItems_cons]
  simp only [Item.written, String.append_assoc]

/-- A script assigns to all variables and all results of chains. -/
lemma mem_targets_items {n : String} (hn : n ∈ t.variableNames ++ t.chains.map Chain.name) :
    n ∈ (items lib name t path).flatMap Item.targets := by
  rw [List.mem_flatMap]
  rcases List.mem_append.mp hn with hn | hn
  · exact ⟨.assign (.empty n), empty_mem_items hn, List.mem_singleton_self n⟩
  · obtain ⟨c, hc, rfl⟩ := List.mem_map.mp hn
    exact ⟨.assign (.chain c), chain_mem_items hc, List.mem_singleton_self c.name⟩

/-- The shell makes all assignments of a script but those of chains as `Assignment.run` does. -/
lemma performed_of_mem_items (h : t.WellNamed) {a : Assignment}
    (ha : .assign a ∈ items lib name (t.annotate defaults descriptions) path)
    (hchain : ∀ c, a ≠ .chain c) :
    a.Performed := by
  delta items at ha
  rcases List.mem_append.mp ha with ha | ha
  · rcases List.mem_append.mp ha with ha | ha
    · rcases mem_declarationItems ha with ⟨_, e⟩ | ⟨n, hn, e⟩
      · cases e
      · cases e
        rw [Template.variableNames_annotate] at hn
        exact Assignment.performed_empty (h.vars n hn)
    · rcases mem_argumentItems ha with ⟨_, e⟩ | e | ⟨v, hv, d, hd, e⟩
      · cases e
      · cases e
      · cases e
        rw [(Template.texts_of_mem_annotate hv).1, Option.map_eq_some_iff] at hd
        obtain ⟨x, -, rfl⟩ := hd
        exact Assignment.performed_default ((h.annotate defaults descriptions).valid v hv) x
  · rcases List.mem_append.mp ha with ha | ha
    · rcases mem_filterItems ha with ⟨_, e⟩ | ⟨c, -, e⟩
      · cases e
      · cases e
        exact absurd rfl (hchain c)
    · cases List.mem_singleton.mp ha

/-! ## The loop in the shell -/

open Shell (Evaluates CanCount CanTake Quotable optionArgs isAllowed isDigit scanned)
open Assignment (Shows)

/-- The pairs as the shell has them. -/
def scannedPairs (pairs : List (String × String)) : List (List Char × List Char) :=
  pairs.map fun p => (p.1.toList, scanned p.2)

/-- The shell can run the loop over the arguments: its variables hold what the environment says, its
arguments are the pairs, the variables may be set, and no digit separates fields while the arguments
are counted. -/
structure Supplied (w : Shell.World) (env : Env) (names : List String)
    (pairs : List (String × String)) : Prop where
  holds : Shows w env
  args : w.args = optionArgs (scannedPairs pairs)
  free : ∀ n ∈ names, n.toList ∉ w.fixed
  counts : CanCount w
  digits : ∀ p ∈ pairs, p.1 = "IFS" → ∀ c ∈ scanned p.2, isDigit c = false

/-- The shell reads the loop as one command, which does to its variables what `takeOptions` does to
the environment. -/
def LoopPerformed (names : List String) (text : String) (pairs : List (String × String)) : Prop :=
  ∀ (results : Chain → String → String) (env env' : Env) (w : Shell.World),
    Supplied w env names pairs →
    takeOptions results names pairs env = some env' →
    Evaluates w (scanned text) fun w' => Shows w' env' ∧ w'.args = [] ∧ w'.fixed = w.fixed

/-- A turn of `takeOptions`. -/
lemma takeOptions_cons_eq_some {names : List String} {p : String × String} {env' : Env} :
    takeOptions results names (p :: pairs) env = some env' ↔
      p.1 ∈ names ∧ isAllowed p.1.toList (scanned p.2) = true ∧
        takeOptions results names pairs (Function.update env p.1 p.2) = some env' := by
  have hrun : (Assignment.argument p.1).run results p.2 env =
      if isAllowed p.1.toList (scanned p.2) = true then some (Function.update env p.1 p.2)
      else none := by
    rw [Assignment.run, Assignment.value, Option.filter_some, apply_ite (Option.map _)]
    rfl
  rw [takeOptions, hrun]
  by_cases hmem : p.1 ∈ names
  · rw [if_pos hmem]
    split <;> simp [*]
  · rw [if_neg hmem]
    simp [hmem]

/-- What `takeOptions` takes can be taken by the loop. -/
lemma canTake_of_takeOptions {names : List String} {env' : Env} {fixed : List (List Char)}
    (h : takeOptions results names pairs env = some env') (hfree : ∀ n ∈ names, n.toList ∉ fixed)
    (hdigits : ∀ p ∈ pairs, p.1 = "IFS" → ∀ c ∈ scanned p.2, isDigit c = false) :
    ∀ p ∈ scannedPairs pairs, CanTake (names.map String.toList) fixed p := by
  induction pairs generalizing env with
  | nil => exact nofun
  | cons p pairs ih =>
    obtain ⟨hmem, hallowed, hrest⟩ := takeOptions_cons_eq_some.mp h
    refine List.forall_mem_cons.mpr ⟨?_, ih hrest fun q hq => hdigits q (by simp [hq])⟩
    exact ⟨List.mem_map_of_mem hmem, hfree _ hmem, hallowed,
      fun e => hdigits p (by simp) (String.toList_inj.mp e)⟩

/-- Taking pairs sets the variables of the shell as it sets those of the environment. -/
lemma shows_giveAll {names : List String} {env' : Env} {w : Shell.World} (hw : Shows w env)
    (h : takeOptions results names pairs env = some env') :
    Shows (w.giveAll (scannedPairs pairs)) env' := by
  induction pairs generalizing env w with
  | nil =>
    obtain rfl := Option.some.inj h
    exact hw
  | cons p pairs ih =>
    obtain ⟨-, -, hrest⟩ := takeOptions_cons_eq_some.mp h
    exact ih (w := w.give p.1.toList (scanned p.2)) (hw.of_sets ⟨rfl, rfl, rfl⟩) hrest

/-- The shell runs the loop of a script as `takeOptions` does. -/
lemma loopPerformed (name : String) (h : t.WellNamed)
    (htexts : ∀ v ∈ t.vars, ∀ d, v.description = some d → Quotable d)
    (hpath : Quotable (OutputPath.forHelp path)) (pairs : List (String × String)) :
    LoopPerformed t.variableNames (argumentLoop name t path ++ "\n") pairs := by
  intro results env env' w hw hrun
  have hnames : t.vars.map (·.name.toList) = t.variableNames.map String.toList := by
    rw [Template.variableNames, List.map_map]
    rfl
  have hpairs := canTake_of_takeOptions hrun hw.free hw.digits
  rw [← hnames] at hpairs
  have heval := Shell.evaluates_argumentLoop name h.valid htexts hpath hpairs hw.counts hw.args
  rw [Shell.scanned_append]
  intro r rest hr
  obtain ⟨c, r', hnext, hr', cost, hdoes⟩ := heval r rest hr
  refine ⟨c, r', hnext, hr', cost, fun fuel hfuel => (hdoes fuel hfuel).mono ?_⟩
  rintro _ _ ⟨k, rfl⟩
  exact ⟨shows_giveAll hw.holds hrun, rfl, rfl⟩

end

/-- A script gets to the line that puts the text of its template together with the values that are
meant for it, whatever it was started with, and whatever the chains make of their bases. All that
this line looks up was assigned by the script, and no assignment undid another one. A script that
declares the variable in which the shell counts options ends at this declaration. -/
theorem reach_output {source : String} {t : Template} (h : Template.parse source = .ok t)
    (lib : FilterLibrary) (name : String) (path : Option String)
    (defaults descriptions : String → Option String) (results : Chain → String → String)
    {pairs : List (String × String)} (hpairs : ∀ p ∈ pairs, p.1 ∈ t.variableNames) (env : Env) :
    let script := items lib name (t.annotate defaults descriptions) path
    (∃ rest,
      compile lib name (t.annotate defaults descriptions) path = renderItems script ++ rest) ∧
      (∀ a, .assign a ∈ script ∨
        (∃ n ∈ t.variableNames, a = .argument n) → (∀ c, a ≠ .chain c) → a.Performed) ∧
      (Shell.Quotable (OutputPath.forHelp path) →
        ∀ names text, .loop names text ∈ script → LoopPerformed names text pairs) ∧
      script.Pairwise Item.Spares ∧
      (∀ n ∈ Quotation.references t.skeleton, n ∈ script.flatMap Item.targets) ∧
      ("OPTIND" ∉ t.variableNames →
        ∃ env', reach results pairs script env = some env' ∧
          (∀ n ∈ t.variableNames, env' n = finalValue defaults pairs n) ∧
          (∀ c ∈ t.chains, env' c.name = results c (env' c.base)) ∧
          ∀ n ∉ t.variableNames ++ t.chains.map Chain.name, env' n = env n) ∧
      ("OPTIND" ∈ t.variableNames →
        .assign (.empty "OPTIND") ∈ script ∧ reach results pairs script env = none ∧
          ∀ w : Shell.World, "OPTIND".toList ∉ w.fixed →
            Shell.Halts w (Shell.scanned (Assignment.empty "OPTIND").line)) := by
  have hnamed := Template.wellNamed_of_parse h
  refine ⟨exists_compile_eq_renderItems, ?_, ?_, pairwise_items (hnamed.annotate _ _), ?_,
    fun hindex => reach_items hnamed hindex hpairs env, ?_⟩
  · rintro a (ha | ⟨n, hn, rfl⟩) hchain
    · exact performed_of_mem_items hnamed ha hchain
    · exact Assignment.performed_argument (hnamed.vars n hn)
  · intro hpath names text hloop
    obtain ⟨rfl, rfl⟩ := loop_mem_items hloop
    refine loopPerformed name (hnamed.annotate _ _) (fun v hv d hd => ?_) hpath pairs
    rw [(Template.texts_of_mem_annotate hv).2, Option.map_eq_some_iff] at hd
    obtain ⟨x, -, rfl⟩ := hd
    exact .escape x
  · intro n hn
    have hmem := List.mem_append.mpr (Template.mem_of_mem_references h hn)
    exact mem_targets_items (by rwa [Template.variableNames_annotate])
  · intro hindex
    have hindex' : "OPTIND" ∈ (t.annotate defaults descriptions).variableNames := by
      rwa [Template.variableNames_annotate]
    exact ⟨empty_mem_items hindex', reach_items_eq_none hindex' env,
      fun w => Assignment.halts_empty_index⟩

/-- A value that is taken back, where the environment has values of its own. -/
theorem reach_output_of_empty_value :
    let source := "\x7b\x7b who | upper \x7d\x7d, \x7b\x7b who \x7d\x7d"
    let defaults := fun n => if n = "who" then some "$HOME\x22" else none
    let pairs := [("who", "a"), ("name", "b"), ("who", "")]
    ∃ t env', Template.parse source = .ok t ∧ (∀ p ∈ pairs, p.1 ∈ t.variableNames) ∧
      reach (fun _ x => x ++ "!") pairs (items {} "greet" (t.annotate defaults defaults) none)
        (fun _ => "old") = some env' ∧
      env' "who" = "$HOME\x22" ∧ env' "name" = "b" ∧ env' "who_upper" = "$HOME\x22!" ∧
      env' "PATH" = "old" := by
  intro source defaults pairs
  have h : Template.parse source = .ok
      { source
        skeleton := "$\x7bwho_upper\x7d, $\x7bwho\x7d"
        vars := [{ name := "who" }, { name := "name" }]
        chains := [Chain.of "who" ["upper"]]
        usesName := false } := by decide +kernel
  have hpairs : ∀ p ∈ pairs, p.1 ∈ ["who", "name"] := by decide
  obtain ⟨-, -, -, -, -, hreach, -⟩ :=
    reach_output h {} "greet" none defaults defaults (fun _ x => x ++ "!") hpairs fun _ => "old"
  obtain ⟨env', hreach, hvars, hchains, hother⟩ := hreach (by decide)
  have hwho : env' "who" = "$HOME\x22" := hvars "who" (by decide)
  have hupper : env' "who_upper" = env' "who" ++ "!" :=
    hchains (Chain.of "who" ["upper"]) (by decide)
  rw [hwho] at hupper
  exact ⟨_, env', h, hpairs, hreach, hwho, hvars "name" (by decide), hupper,
    hother "PATH" (by decide)⟩

/-- The variable in which the shell counts options is accepted in a template. Its script does not
get past the declaration, whatever is given for the variable. -/
theorem index_stops_script :
    let pairs := [("OPTIND", "3"), ("name", "x")]
    let report := Shell.runScript {} "b" (Text.encode "OPTIND=''\n") []
    ∃ t, Template.parse "\x7b\x7b OPTIND \x7d\x7d" = .ok t ∧ (∀ p ∈ pairs, p.1 ∈ t.variableNames) ∧
      finalValue (fun _ => none) pairs "OPTIND" = "3" ∧
      (∀ env, reach (fun _ x => x) pairs (items {} "b" t none) env = none) ∧
      (∃ before after, compile {} "b" t none = before ++ "OPTIND=''\n" ++ after) ∧
      report.status = some 2 ∧ report.err = Text.encode "b: 1: Illegal number: \n" := by
  intro pairs report
  let t : Template :=
    { source := "\x7b\x7b OPTIND \x7d\x7d"
      skeleton := "$\x7bOPTIND\x7d"
      vars := [{ name := "OPTIND" }, { name := "name" }]
      chains := []
      usesName := false }
  refine ⟨t, by decide +kernel, by decide, by decide, ?_, ?_, by decide +kernel, by decide +kernel⟩
  · exact reach_items_eq_none (by decide)
  · exact exists_compile_eq_assign (a := .empty "OPTIND") (empty_mem_items (by decide))

end Script

end Stencil
