import BitTerms.Proofs.Solver.Dialogues
import Mathlib.Data.List.Induction
import Mathlib.Data.List.Infix

/-!
# Scopes of declarations

A solver forgets the variables that it was told about at an assertion level when the level is
closed. A session tells it about each variable once, and keeps it as declared from then on. So a
declared variable is in scope exactly as long as no level is closed that was open when it was
declared first.
-/

namespace BitTerms

/-! ## The solver's side -/

/-- The variables that were declared at each open assertion level, the innermost level first. -/
abbrev Scopes := List (List (String × SmtSort))

namespace Scopes

def after (scopes : Scopes) : Command → Scopes
  | .declare symbol sort =>
    match scopes with
    | [] => []
    | level :: outer => ((symbol, sort) :: level) :: outer
  | .push levels => List.replicate (levels.getD 1) [] ++ scopes
  | .pop levels => scopes.drop (levels.getD 1)
  | .setOption _ _ | .assert _ | .checkSat | .getValue _ => scopes

/-- The scopes after the commands that were sent. At first only the outermost level is open. -/
def ofLog (log : Array Command) : Scopes := log.foldl after [[]]

theorem ofLog_push (log : Array Command) (command : Command) :
    ofLog (log.push command) = (ofLog log).after command := by
  simp [ofLog]

def Declares (scopes : Scopes) (symbol : String) (sort : SmtSort) : Prop :=
  ∃ level ∈ scopes, (symbol, sort) ∈ level

/-- If it is in scope at all, the variable is at this level, counted from the innermost one, and at
no other. -/
def Places (scopes : Scopes) (symbol : String) (sort : SmtSort) (position : Int)
    (inScope : Prop) : Prop :=
  ∀ (index : Nat) (level : List (String × SmtSort)), scopes[index]? = some level →
    ((symbol, sort) ∈ level ↔ (index : Int) = position ∧ inScope)

variable {scopes : Scopes} {symbol : String} {sort : SmtSort} {position : Int} {inScope : Prop}

theorem Places.declares_iff (places : scopes.Places symbol sort position inScope)
    (inside : inScope → 0 ≤ position ∧ position < scopes.length) :
    scopes.Declares symbol sort ↔ inScope := by
  constructor
  · rintro ⟨level, member, declared⟩
    rcases List.mem_iff_getElem?.mp member with ⟨index, found⟩
    exact ((places index level found).mp declared).2
  · intro holds
    rcases inside holds with ⟨atLeast, below⟩
    have small : position.toNat < scopes.length := by omega
    refine ⟨scopes[position.toNat], List.getElem_mem small, ?_⟩
    refine (places _ _ (List.getElem?_eq_getElem small)).mpr ⟨?_, holds⟩
    omega

theorem Places.push (places : scopes.Places symbol sort position inScope)
    (inside : inScope → 0 ≤ position) (levels : Option Nat) :
    (scopes.after (.push levels)).Places symbol sort (position + (levels.getD 1 : Nat))
      inScope := by
  intro index level found
  simp only [after] at found
  rcases Nat.lt_or_ge index (levels.getD 1) with small | large
  · rw [List.getElem?_append_left (by simpa using small), List.getElem?_replicate,
      if_pos small] at found
    cases found
    refine iff_of_false (by simp) fun both => ?_
    have := inside both.2
    omega
  · rw [List.getElem?_append_right (by simpa using large), List.length_replicate] at found
    rw [places _ _ found]
    exact and_congr_left fun _ => by omega

/-- Levels that are closed take the variable with them, or move it inwards. -/
theorem Places.pop (places : scopes.Places symbol sort position inScope) (levels : Option Nat) :
    (scopes.after (.pop levels)).Places symbol sort (position - (levels.getD 1 : Nat))
      (inScope ∧ 0 ≤ position - (levels.getD 1 : Nat)) := by
  intro index level found
  simp only [after, List.getElem?_drop] at found
  rw [places _ _ found]
  constructor
  · rintro ⟨same, holds⟩
    exact ⟨by omega, holds, by omega⟩
  · rintro ⟨same, holds, -⟩
    exact ⟨by omega, holds⟩

theorem Places.declare (places : scopes.Places symbol sort position inScope) {other : String}
    (different : symbol ≠ other) (otherSort : SmtSort) :
    (scopes.after (.declare other otherSort)).Places symbol sort position inScope := by
  intro index level found
  match scopes, index with
  | [], _ => simp [after] at found
  | innermost :: outer, 0 =>
      cases found
      rw [List.mem_cons, Prod.mk.injEq, or_iff_right (by simp [different])]
      exact places 0 innermost rfl
  | innermost :: outer, index + 1 => exact places (index + 1) level found

theorem length_declare (symbol : String) (sort : SmtSort) (positive : 0 < scopes.length) :
    (scopes.after (.declare symbol sort)).length = scopes.length := by
  cases scopes with
  | nil => simp at positive
  | cons level outer => rfl

/-- A variable that is in no scope is declared at the innermost level. -/
theorem Places.declare_self (absent : scopes.Places symbol sort position False) :
    (scopes.after (.declare symbol sort)).Places symbol sort 0 True := by
  intro index level found
  match scopes, index with
  | [], _ => simp [after] at found
  | innermost :: outer, 0 =>
      cases found
      simp
  | innermost :: outer, index + 1 =>
      rw [absent (index + 1) level found]
      refine iff_of_false And.right fun both => ?_
      omega

theorem Places.of_false (absent : scopes.Places symbol sort position False) (other : Int) :
    scopes.Places symbol sort other False := by
  intro index level found
  rw [absent index level found, and_false, and_false]

end Scopes

/-! ## The turns of a dialogue -/

/-- How many levels a turn opens. A turn that closes levels opens less than none. -/
def Turn.opens (levels : Option Nat) : Turn → Int
  | .push => (levels.getD 1 : Nat)
  | .pop => -(levels.getD 1 : Nat)
  | _ => 0

namespace Turns

def depth (levels : Option Nat) (turns : List Turn) : Int :=
  (turns.map (Turn.opens levels)).sum

/-- No level is closed that was open before the turns. -/
def KeepOpen (levels : Option Nat) (turns : List Turn) : Prop :=
  ∀ part, part <+: turns → 0 ≤ depth levels part

instance (levels : Option Nat) (turns : List Turn) : Decidable (KeepOpen levels turns) :=
  decidable_of_iff (∀ part ∈ turns.inits, 0 ≤ depth levels part) (by simp [KeepOpen])

/-- The turns after the first one that declares the variable. -/
def sinceDeclared (name : String) (sort : SmtSort) : List Turn → List Turn
  | [] => []
  | turn :: rest =>
    if turn.declares? = some (name, sort) then rest else sinceDeclared name sort rest

variable {levels : Option Nat} {turns : List Turn} {turn : Turn} {name : String} {sort : SmtSort}

theorem depth_append_singleton (levels : Option Nat) (turns : List Turn) (turn : Turn) :
    depth levels (turns ++ [turn]) = depth levels turns + turn.opens levels := by
  simp [depth]

theorem keepOpen_nil (levels : Option Nat) : KeepOpen levels [] := by
  intro part isPrefix
  rw [List.prefix_nil.mp isPrefix]
  exact Int.le_refl 0

theorem KeepOpen.depth_nonneg (keep : KeepOpen levels turns) : 0 ≤ depth levels turns :=
  keep turns (List.prefix_refl turns)

theorem keepOpen_append_singleton :
    KeepOpen levels (turns ++ [turn]) ↔
      KeepOpen levels turns ∧ 0 ≤ depth levels turns + turn.opens levels := by
  rw [← depth_append_singleton]
  constructor
  · intro keep
    exact ⟨fun part isPrefix => keep part (isPrefix.trans (List.prefix_append _ _)),
      keep.depth_nonneg⟩
  · rintro ⟨keep, last⟩ part isPrefix
    rcases List.prefix_concat_iff.mp isPrefix with rfl | isPrefix
    · exact last
    · exact keep part isPrefix

theorem sinceDeclared_first
    (undeclared : ∀ earlier ∈ turns, earlier.declares? ≠ some (name, sort))
    (declares : turn.declares? = some (name, sort)) :
    sinceDeclared name sort (turns ++ [turn]) = [] := by
  induction turns with
  | nil => exact if_pos declares
  | cons first rest induction =>
      rcases List.forall_mem_cons.mp undeclared with ⟨notFirst, notRest⟩
      rw [List.cons_append, sinceDeclared, if_neg notFirst]
      exact induction notRest

theorem sinceDeclared_later
    (declared : ∃ earlier ∈ turns, earlier.declares? = some (name, sort)) :
    sinceDeclared name sort (turns ++ [turn]) = sinceDeclared name sort turns ++ [turn] := by
  induction turns with
  | nil => simp at declared
  | cons first rest induction =>
      rw [List.cons_append, sinceDeclared, sinceDeclared]
      split
      case isTrue => rfl
      case isFalse notFirst => exact induction (by simpa [notFirst] using declared)

end Turns

/-! ## Turns and scopes -/

namespace Scopes

variable {scopes : Scopes} {symbol : String} {sort : SmtSort} {position : Int} {inScope : Prop}
  {levels : Option Nat} {turn : Turn} {command : Command}

theorem Places.congr (places : scopes.Places symbol sort position inScope) {other : Prop}
    (same : inScope ↔ other) : scopes.Places symbol sort position other :=
  propext same ▸ places

theorem Places.stay (places : scopes.Places symbol sort position inScope)
    (inside : inScope → 0 ≤ position) :
    scopes.Places symbol sort (position + 0) (inScope ∧ 0 ≤ position + 0) := by
  rw [Int.add_zero]
  exact places.congr (and_iff_left_of_imp inside).symm

theorem Places.send (places : scopes.Places symbol sort position inScope)
    (inside : inScope → 0 ≤ position) (sends : Solver.Sends levels turn command) :
    (scopes.after command).Places symbol sort (position + turn.opens levels)
      (inScope ∧ 0 ≤ position + turn.opens levels) := by
  cases sends with
  | push =>
      refine (places.push inside levels).congr (and_iff_left_of_imp fun holds => ?_).symm
      have := inside holds
      simp only [Turn.opens]
      omega
  | pop => exact places.pop levels
  | assert | check | modelValue => exact places.stay inside

theorem length_send (sends : Solver.Sends levels turn command)
    (nonneg : 0 ≤ (scopes.length : Int) + turn.opens levels) :
    ((scopes.after command).length : Int) = scopes.length + turn.opens levels := by
  cases sends with
  | push =>
      simp only [after, List.length_append, List.length_replicate, Turn.opens]
      omega
  | pop =>
      simp only [after, List.length_drop, Turn.opens] at nonneg ⊢
      omega
  | assert | check | modelValue => simp [after, Turn.opens]

end Scopes

theorem Symbol.text_injective {left right : String} (same : text left = text right) :
    left = right := by
  rw [← unquoted_text left, same, unquoted_text]

theorem Turn.opens_of_declares {turn : Turn} {name : String} {sort : SmtSort}
    (declares : turn.declares? = some (name, sort)) (levels : Option Nat) :
    turn.opens levels = 0 := by
  cases turn with
  | build call => rfl
  | push | pop | assert | check | modelValue => cases declares

namespace Solver

open Turns

/-- The variable was declared at one of the turns, and is in scope if no level was closed since
that was open then. -/
structure Placed (levels : Option Nat) (turns : List Turn) (scopes : Scopes) (name : String)
    (sort : SmtSort) : Prop where
  asked : ∃ turn ∈ turns, turn.declares? = some (name, sort)
  below : depth levels (sinceDeclared name sort turns) ≤ depth levels turns
  places : scopes.Places (Symbol.text name) sort (depth levels (sinceDeclared name sort turns))
    (KeepOpen levels (sinceDeclared name sort turns))

/-- How the variables that a session has declared after some turns stand to the scopes at the
solver. -/
structure Tracks (levels : Option Nat) (turns : List Turn) (solver : Solver) : Prop where
  counted : solver.levels = levels
  height : ((Scopes.ofLog solver.channel.log).length : Int) = 1 + depth levels turns
  asked : ∀ {name : String} {sort : SmtSort},
    (∃ turn ∈ turns, turn.declares? = some (name, sort)) →
      Symbol.isSpellable name = false ∨ ∃ entry, solver.declared[name]? = some entry
  absent : ∀ {name : String}, solver.declared[name]? = none → ∀ sort position,
    (Scopes.ofLog solver.channel.log).Places (Symbol.text name) sort position False
  placed : ∀ {name : String} {sort : SmtSort} {term : Nat},
    solver.declared[name]? = some (sort, term) →
      Placed levels turns (Scopes.ofLog solver.channel.log) name sort

variable {levels : Option Nat} {turns : List Turn} {turn : Turn} {scopes next : Scopes}
  {name : String} {sort : SmtSort} {old new : Solver}

theorem Placed.later (placed : Placed levels turns scopes name sort)
    (places : next.Places (Symbol.text name) sort
      (depth levels (sinceDeclared name sort turns) + turn.opens levels)
      (KeepOpen levels (sinceDeclared name sort turns) ∧
        0 ≤ depth levels (sinceDeclared name sort turns) + turn.opens levels)) :
    Placed levels (turns ++ [turn]) next name sort := by
  rcases placed.asked with ⟨earlier, member, declares⟩
  refine ⟨⟨earlier, List.mem_append_left _ member, declares⟩, ?_, ?_⟩
  · rw [sinceDeclared_later placed.asked, depth_append_singleton, depth_append_singleton]
    exact Int.add_le_add_right placed.below _
  · rw [sinceDeclared_later placed.asked, depth_append_singleton]
    exact places.congr keepOpen_append_singleton.symm

/-- The variable that a turn declares first is in scope from then on. -/
theorem Placed.first (undeclared : ∀ earlier ∈ turns, earlier.declares? ≠ some (name, sort))
    (declares : turn.declares? = some (name, sort)) (keep : KeepOpen levels (turns ++ [turn]))
    (absent : scopes.Places (Symbol.text name) sort 0 False) :
    Placed levels (turns ++ [turn]) (scopes.after (.declare (Symbol.text name) sort)) name
      sort := by
  have first := sinceDeclared_first undeclared declares
  refine ⟨⟨turn, List.mem_append_right _ (List.mem_singleton_self turn), declares⟩, ?_, ?_⟩
  · rw [first]
    exact keep.depth_nonneg
  · rw [first]
    exact absent.declare_self.congr (iff_of_true trivial (keepOpen_nil levels))

/-- A variable stays where it is when another one is declared. -/
theorem Placed.apart (placed : Placed levels turns scopes name sort) {other : String}
    (apart : other ≠ name) (otherSort : SmtSort) (opens : turn.opens levels = 0) :
    Placed levels (turns ++ [turn]) (scopes.after (.declare (Symbol.text other) otherSort)) name
      sort := by
  refine placed.later ?_
  rw [opens]
  have different : Symbol.text name ≠ Symbol.text other :=
    fun same => apart (Symbol.text_injective same).symm
  exact (placed.places.declare different otherSort).stay KeepOpen.depth_nonneg

theorem Placed.inScope_iff (placed : Placed levels turns scopes name sort)
    (height : (scopes.length : Int) = 1 + depth levels turns) :
    scopes.Declares (Symbol.text name) sort ↔ KeepOpen levels (sinceDeclared name sort turns) := by
  refine placed.places.declares_iff fun keep => ⟨keep.depth_nonneg, ?_⟩
  have := placed.below
  omega

/-- A turn that tells the solver about no variable moves all of them alike. -/
theorem Tracks.moved (tracks : Tracks levels turns old) (counted : new.levels = levels)
    (declared : new.declared = old.declared)
    (known : ∀ name sort, turn.declares? = some (name, sort) →
      Symbol.isSpellable name = false ∨ ∃ entry, old.declared[name]? = some entry)
    (height : ((Scopes.ofLog new.channel.log).length : Int) =
      (Scopes.ofLog old.channel.log).length + turn.opens levels)
    (places : ∀ {symbol : String} {sort : SmtSort} {position : Int} {inScope : Prop},
      (Scopes.ofLog old.channel.log).Places symbol sort position inScope →
      (inScope → 0 ≤ position) →
        (Scopes.ofLog new.channel.log).Places symbol sort (position + turn.opens levels)
          (inScope ∧ 0 ≤ position + turn.opens levels)) :
    Tracks levels (turns ++ [turn]) new where
  counted := counted
  height := by
    rw [height, tracks.height, depth_append_singleton, Int.add_assoc]
  asked := by
    rintro name sort ⟨asking, member, declares⟩
    rw [declared]
    rcases List.mem_append.mp member with earlier | last
    · exact tracks.asked ⟨asking, earlier, declares⟩
    · exact known name sort (List.mem_singleton.mp last ▸ declares)
  absent undeclared sort position := by
    have before := tracks.absent (declared ▸ undeclared) sort 0
    exact ((places before False.elim).congr (by simp)).of_false position
  placed found := by
    have before := tracks.placed (declared ▸ found)
    exact before.later (places before.places KeepOpen.depth_nonneg)

/-- A turn that tells the solver about a variable leaves the others where they are. -/
theorem Tracks.told (tracks : Tracks levels turns old)
    (keep : KeepOpen levels (turns ++ [turn])) (counted : new.levels = levels)
    (declares : turn.declares? = some (name, sort)) (told : old.Told name sort new) :
    Tracks levels (turns ++ [turn]) new := by
  have opens := turn.opens_of_declares declares levels
  have log : Scopes.ofLog new.channel.log =
      (Scopes.ofLog old.channel.log).after (.declare (Symbol.text name) sort) := by
    rw [told.log, Scopes.ofLog_push]
  rcases told.declared with ⟨term, declared⟩
  have found (other : String) :
      new.declared[other]? =
        if name = other then some (sort, term) else old.declared[other]? := by
    rw [declared, Std.HashMap.getElem?_insert]
    simp only [beq_iff_eq]
  have undeclared : ∀ earlier ∈ turns, earlier.declares? ≠ some (name, sort) := by
    intro earlier member asks
    rcases tracks.asked ⟨earlier, member, asks⟩ with unspellable | ⟨entry, known⟩
    · cases told.spellable.symm.trans unspellable
    · cases told.undeclared.symm.trans known
  constructor
  · exact counted
  · have height := tracks.height
    have nonneg := (keepOpen_append_singleton.mp keep).1.depth_nonneg
    rw [log, Scopes.length_declare _ _ (by omega), height, depth_append_singleton, opens,
      Int.add_zero]
  · rintro other otherSort ⟨asking, member, asks⟩
    rw [found]
    split
    · exact .inr ⟨_, rfl⟩
    case isFalse apart =>
        rcases List.mem_append.mp member with earlier | last
        · exact tracks.asked ⟨asking, earlier, asks⟩
        · rw [List.mem_singleton.mp last, declares] at asks
          exact absurd (Prod.mk.inj (Option.some.inj asks)).1 apart
  · intro other absent otherSort position
    rw [found] at absent
    split at absent
    case isTrue => cases absent
    case isFalse apart =>
        have different : Symbol.text other ≠ Symbol.text name :=
          fun same => apart (Symbol.text_injective same).symm
        rw [log]
        exact (tracks.absent absent otherSort position).declare different sort
  · intro other otherSort otherTerm declaredToo
    rw [found] at declaredToo
    rw [log]
    split at declaredToo
    case isTrue same =>
        subst same
        cases declaredToo
        exact .first undeclared declares keep (tracks.absent told.undeclared sort 0)
    case isFalse apart => exact (tracks.placed declaredToo).apart apart sort opens

theorem Tracks.said (tracks : Tracks levels turns old) (keep : KeepOpen levels (turns ++ [turn]))
    (counted : new.levels = old.levels) (said : old.Said turn new) :
    Tracks levels (turns ++ [turn]) new := by
  have countedNext := counted.trans tracks.counted
  cases said with
  | sent command sends sent =>
      rw [tracks.counted] at sends
      have log : Scopes.ofLog new.channel.log = (Scopes.ofLog old.channel.log).after command := by
        rw [sent.log, Scopes.ofLog_push]
      have nonneg := (keepOpen_append_singleton.mp keep).2
      have height := tracks.height
      refine tracks.moved countedNext sent.declared (fun name sort declares => ?_) ?_
        fun places inside => ?_
      · cases sends <;> cases declares
      · rw [log]
        exact Scopes.length_send sends (by omega)
      · rw [log]
        exact places.send inside sends
  | told name sort declares told => exact tracks.told keep countedNext declares told
  | nothing notPush notPop silent known =>
      have opens : turn.opens levels = 0 := by
        cases turn with
        | push => exact absurd rfl notPush
        | pop => exact absurd rfl notPop
        | build | assert | check | modelValue => rfl
      refine tracks.moved countedNext silent.declared known ?_ fun places inside => ?_
      · rw [silent.channel, opens, Int.add_zero]
      · rw [silent.channel, opens]
        exact places.stay inside

theorem tracks_start {preset : Preset} {peer : Option Peer} {build : Build} {solver : Solver}
    (started : start preset peer build = .ok solver) : Tracks preset.levels [] solver := by
  rcases eq_of_start started with ⟨channel, rfl, log⟩
  have scopes : Scopes.ofLog channel.log = [[]] := by
    rw [log]
    rfl
  constructor
  · rfl
  · rw [scopes]
    rfl
  · simp
  · intro name _ sort position index level found
    rw [scopes] at found
    obtain rfl : level = [] := List.mem_singleton.mp (List.mem_of_getElem? found)
    simp
  · simp

end Solver

namespace Session

open Turns

theorem tracks_converse (id : Nat) {preset : Preset} {peer : Option Peer} {build : Build}
    {solver : Solver} (started : Solver.start preset peer build = .ok solver) {turns : List Turn}
    (keep : KeepOpen preset.levels turns)
    (acknowledged : ∀ fault : SolverFault,
      .failed (.solver fault) ∉ ((start id solver).converse turns).outcomes) :
    Solver.Tracks preset.levels turns ((start id solver).converse turns).context.engine := by
  -- From the end: what the last turn sends is judged by the scopes that the others have left.
  induction turns using List.reverseRecOn with
  | nil => exact Solver.tracks_start started
  | append_singleton turns turn induction =>
      have holds := (holds_started id started).converse turns
      rcases holds.exists_turned turn with ⟨outcome, next, turned, does⟩
      rw [converse_append, turned] at acknowledged ⊢
      have tracks := induction (keepOpen_append_singleton.mp keep).1 fun fault failed =>
        acknowledged fault (List.mem_append_left _ failed)
      rcases does.said with ⟨fault, rfl⟩ | said
      · exact absurd (List.mem_append_right _ (List.mem_singleton_self _)) (acknowledged fault)
      · exact tracks.said keep does.keeps.levels said

theorem exists_inner :
    ∃ next, (start 0 (Solver.opened .z3 [])).converse [.push, .build (.declareBits "x" 8)] =
        ⟨next, [.done, .made ⟨0, .bits .byte, 0⟩]⟩ ∧
      next.id = 0 ∧ next.engine.levels = none ∧
      next.engine.declared["x"]? = some (.bits .byte, 0) ∧
      next.engine.channel =
        { log := #[.setOption "print-success" "true", .setOption "produce-models" "true",
            .push none, .declare "x" (.bits .byte)] } := by
  have eight : Width.ofNat 8 = .ok .byte := rfl
  have spellable : Symbol.isSpellable "x" = true := by decide +kernel
  have spelled : Symbol.text "x" = "x" := by decide +kernel
  have told (log : Array Command) := Channel.acknowledge_quiet (.declare "x" (.bits .byte)) log rfl
  have pushed (log : Array Command) := Channel.acknowledge_quiet (.push none) log rfl
  have opening : Preset.z3.levels = none := rfl
  simp [converse, start, Solver.opened, turn_build, turn_push, perform, Context.push_apply,
    Action.map_apply, Context.onChannel_apply, pushed, call_eq, Call.plan, Plan.ofWidth, eight,
    follow, Ending.follow, Request.run, Engine.declare, Solver.declare_of_undeclared, spellable,
    spelled, told, Solver.introduced, opening, Dag.intern]

theorem turn_declareBits_again {context : Context Solver} {outcomes : List Outcome} {term : Nat}
    (declared : context.engine.declared["x"]? = some (.bits .byte, term)) :
    (⟨context, outcomes⟩ : Session Solver).turn (.build (.declareBits "x" 8)) =
      ⟨{ context with
          widths := [.bits .byte, .bits .byte].foldl Plan.register context.widths },
        outcomes ++ [.made ⟨context.id, .bits .byte, term⟩]⟩ := by
  have eight : Width.ofNat 8 = .ok .byte := rfl
  have spellable : Symbol.isSpellable "x" = true := by decide +kernel
  simp [turn_build, call_eq, Call.plan, Plan.ofWidth, eight, follow, Ending.follow, Request.run,
    Engine.declare, Solver.declare_of_declared spellable declared]

theorem exists_closed {context : Context Solver} {outcomes : List Outcome}
    {log : Array Command} (quiet : context.engine.channel = { log }) :
    ∃ next, (⟨context, outcomes⟩ : Session Solver).turn .pop = ⟨next, outcomes ++ [.done]⟩ ∧
      next.id = context.id ∧ next.engine.declared = context.engine.declared ∧
      next.engine.channel = { log := log.push (.pop context.engine.levels) } := by
  have popped := Channel.acknowledge_quiet (.pop context.engine.levels) log rfl
  simp [turn_pop, perform, Action.map_apply, Context.pop_apply, Context.onChannel_apply, quiet,
    popped]

/-- When all commands are acknowledged and no more levels are closed than were opened, a variable
that was just declared is in scope at the solver exactly if no level was closed since its first
declaration that was open then. -/
theorem declared_inScope_iff (id : Nat) {preset : Preset} {peer : Option Peer} {build : Build}
    {solver : Solver} (started : Solver.start preset peer build = .ok solver) (turns : List Turn)
    (last : Turn) {name : String} {sort : SmtSort} (declares : last.declares? = some (name, sort))
    (keep : KeepOpen preset.levels (turns ++ [last]))
    (acknowledged : ∀ fault : SolverFault,
      .failed (.solver fault) ∉ ((start id solver).converse (turns ++ [last])).outcomes)
    {expr : Expr}
    (made : ((start id solver).converse (turns ++ [last])).outcomes.getLast? = some (.made expr)) :
    let session := (start id solver).converse (turns ++ [last])
    (Scopes.ofLog session.context.engine.channel.log).Declares (Symbol.text name) sort ↔
      KeepOpen preset.levels (sinceDeclared name sort (turns ++ [last])) := by
  intro session
  have tracks := tracks_converse id started keep acknowledged
  have holds := (holds_started id started).converse turns
  rcases holds.exists_turned last with ⟨outcome, next, turned, does⟩
  rw [converse_append, turned, List.getLast?_concat] at made
  have declared : session.context.engine.declared[name]? = some (sort, expr.term) := by
    have := does.declared name sort expr declares (Option.some.inj made)
    simpa only [session, converse_append, turned] using this
  exact (tracks.placed declared).inScope_iff tracks.height

theorem declared_inScope_of_inner :
    let turns : List Turn := [.push, .build (.declareBits "x" 8)]
    let last : Turn := .build (.declareBits "x" 8)
    let session := (start 0 (Solver.opened .z3 [])).converse (turns ++ [last])
    KeepOpen none (turns ++ [last]) ∧
      (∀ fault : SolverFault, .failed (.solver fault) ∉ session.outcomes) ∧
      session.outcomes.getLast? = some (.made ⟨0, .bits .byte, 0⟩) ∧
      (Scopes.ofLog session.context.engine.channel.log).Declares (Symbol.text "x")
        (.bits .byte) := by
  intro turns last session
  have keep : KeepOpen none (turns ++ [last]) := by decide
  rcases exists_inner with ⟨next, inner, id, -, declared, -⟩
  have outcomes : session.outcomes =
      [.done, .made ⟨0, .bits .byte, 0⟩, .made ⟨0, .bits .byte, 0⟩] := by
    simp only [session, turns, last]
    rw [converse_append, inner, turn_declareBits_again declared, id]
    rfl
  have acknowledged : ∀ fault : SolverFault, .failed (.solver fault) ∉ session.outcomes := by
    simp [outcomes]
  have made : session.outcomes.getLast? = some (.made ⟨0, .bits .byte, 0⟩) := by
    simp [outcomes]
  refine ⟨keep, acknowledged, made, ?_⟩
  refine (declared_inScope_iff 0 (Solver.start_opened .z3 rfl) turns last rfl keep acknowledged
    made).mpr ?_
  decide +kernel

/-- A byte that is declared at an inner level and asked for again when the level is closed: the
solver has forgotten it, and is not told again. -/
theorem not_inScope_of_closed :
    let turns : List Turn := [.push, .build (.declareBits "x" 8), .pop]
    let last : Turn := .build (.declareBits "x" 8)
    let session := (start 0 (Solver.opened .z3 [])).converse (turns ++ [last])
    KeepOpen none (turns ++ [last]) ∧
      session.outcomes = [.done, .made ⟨0, .bits .byte, 0⟩, .done, .made ⟨0, .bits .byte, 0⟩] ∧
      ¬ (Scopes.ofLog session.context.engine.channel.log).Declares (Symbol.text "x")
        (.bits .byte) := by
  intro turns last session
  rcases exists_inner with ⟨inner, opened, id, levels, declared, quiet⟩
  have closing := @exists_closed inner [.done, .made ⟨0, .bits .byte, 0⟩] _ quiet
  rcases closing with ⟨outer, closed, sameId, sameDeclared, log⟩
  rw [← sameDeclared] at declared
  have closedTurns : (start 0 (Solver.opened .z3 [])).converse turns =
      ⟨outer, [.done, .made ⟨0, .bits .byte, 0⟩, .done]⟩ :=
    (converse_append _ [.push, .build (.declareBits "x" 8)] .pop).trans
      ((congrArg (fun session => Session.turn session .pop) opened).trans closed)
  have again :=
    @turn_declareBits_again outer [.done, .made ⟨0, .bits .byte, 0⟩, .done] _ declared
  have reached := (congrArg (fun session => Session.turn session last) closedTurns).trans again
  rw [← converse_append] at reached
  have outcomes : session.outcomes =
      [.done, .made ⟨0, .bits .byte, 0⟩, .done, .made ⟨0, .bits .byte, 0⟩] :=
    (congrArg Session.outcomes reached).trans (by rw [sameId, id]; rfl)
  have forgotten : Scopes.ofLog session.context.engine.channel.log = [[]] := by
    rw [congrArg (fun session : Session Solver => session.context.engine.channel) reached, log,
      levels]
    rfl
  refine ⟨by decide, outcomes, ?_⟩
  rintro ⟨level, member, declares⟩
  rw [forgotten, List.mem_singleton] at member
  subst member
  cases declares

end Session

end BitTerms
