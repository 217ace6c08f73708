import Rivers.Lib.Transitions

/-! Programs that step on a shared world one call at a time, and a logic for them. -/

namespace Passes

open Transitions

inductive Program (Request : Type) (Answer : Request → Type) (Result : Type) where
  | done (result : Result)
  | call (request : Request) (next : Answer request → Program Request Answer Result)

namespace Program

variable {Request : Type} {Answer : Request → Type} {Result Last : Type}

def bind (next : Result → Program Request Answer Last) :
    Program Request Answer Result → Program Request Answer Last
  | done result => next result
  | call request more => call request fun answer => bind next (more answer)

instance : Monad (Program Request Answer) where
  pure := done
  bind program next := bind next program

def ask (request : Request) : Program Request Answer (Answer request) :=
  call request done

end Program

/-- Passes over a world: what others change, what a pass reads where it starts, the pass it then
makes, and how a call is served. -/
structure System (World Request : Type) (Answer : Request → Type)
    (Reply Change Seen Result : Type) where
  change : World → Change → Option World
  read : World → Option Seen
  pass : Seen → Program Request Answer Result
  serve : World → (request : Request) → Reply → World × Answer request

inductive Action (Reply Change : Type) where
  | change (change : Change)
  | start
  | call (reply : Reply)
  | crash
  deriving DecidableEq

variable {World Request Reply Change Seen Result : Type} {Answer : Request → Type}

structure State (World Request : Type) (Answer : Request → Type) (Seen Result : Type) where
  world : World
  underWay : Option (Seen × Program Request Answer Result) := none

namespace System

variable (system : System World Request Answer Reply Change Seen Result)

def goOn (seen : Seen) : Program Request Answer Result →
    Option (Seen × Program Request Answer Result)
  | .done _ => none
  | .call request next => some (seen, .call request next)

def step (state : State World Request Answer Seen Result) :
    Action Reply Change → Option (State World Request Answer Seen Result)
  | .change change => (system.change state.world change).map fun world => { state with world }
  | .start =>
      match state.underWay with
      | some _ => none
      | none =>
          (system.read state.world).map fun seen =>
            { state with underWay := goOn seen (system.pass seen) }
  | .call reply =>
      match state.underWay with
      | some (seen, .call request next) =>
          let (world, answer) := system.serve state.world request reply
          some { world, underWay := goOn seen (next answer) }
      | _ => none
  | .crash => if state.underWay.isSome then some { state with underWay := none } else none

end System

structure Discipline (system : System World Request Answer Reply Change Seen Result) where
  mayChange : World → Change → Prop
  mayStart : World → Prop
  mayServe : World → Seen → Request → Reply → Prop
  mayCrash : World → Prop
  invariant : World → Prop
  rely : World → World → Prop
  guarantee : World → World → Prop
  rest : World → Prop

namespace Discipline

variable {system : System World Request Answer Reply Change Seen Result}
  (discipline : Discipline system)

def Permits (state : State World Request Answer Seen Result) : Action Reply Change → Prop
  | .change change => discipline.mayChange state.world change
  | .start => discipline.mayStart state.world
  | .call reply =>
      match state.underWay with
      | some (seen, .call request _) => discipline.mayServe state.world seen request reply
      | _ => True
  | .crash => discipline.mayCrash state.world

/-- Whatever others do between its calls, each call of the program keeps the guarantee, and the
program ends as `post` says. -/
def Upholds {Last : Type} (seen : Seen) (post : Last → World → Prop) :
    Program Request Answer Last → World → Prop
  | .done result, world => post result world
  | .call request next, world =>
      ∀ now, discipline.rely world now → discipline.invariant now →
        ∀ reply, discipline.mayServe now seen request reply →
          discipline.guarantee now (system.serve now request reply).1 ∧
            Upholds seen post (next (system.serve now request reply).2)
              (system.serve now request reply).1

def Stable (known : World → Prop) : Prop :=
  ∀ before after, discipline.rely before after → known before → known after

section Rules

variable {discipline} {Last End : Type} {seen : Seen} {world : World}

theorem Upholds.call {post : Last → World → Prop} {req : Request}
    {next : Answer req → Program Request Answer Last} {known : World → Prop}
    (told : Answer req → World → Prop) (stable : discipline.Stable known) (holds : known world)
    (served : ∀ now reply, known now → discipline.invariant now →
      discipline.mayServe now seen req reply →
      discipline.guarantee now (system.serve now req reply).1 ∧
        told (system.serve now req reply).2 (system.serve now req reply).1)
    (goesOn : ∀ answer after, told answer after →
      discipline.Upholds seen post (next answer) after) :
    discipline.Upholds seen post (.call req next) world := by
  grind [Upholds, Stable]

theorem Upholds.weaken {post weaker : Last → World → Prop} {program : Program Request Answer Last}
    (upholds : discipline.Upholds seen post program world)
    (implies : ∀ result after, post result after → weaker result after) :
    discipline.Upholds seen weaker program world := by
  induction program generalizing world with
  | done result => exact implies _ _ upholds
  | call req next ih => grind [Upholds]

theorem Upholds.bind {post : End → World → Prop} {program : Program Request Answer Last}
    {next : Last → Program Request Answer End}
    (upholds : discipline.Upholds seen (fun result => discipline.Upholds seen post (next result))
      program world) :
    discipline.Upholds seen post (program.bind next) world := by
  induction program generalizing world with
  | done result => exact upholds
  | call req more ih => grind [Upholds, Program.bind]

end Rules

structure Sound : Prop where
  refl : ∀ world, discipline.rely world world
  trans : ∀ {first second third}, discipline.rely first second → discipline.rely second third →
    discipline.rely first third
  changes : ∀ {world change next}, system.change world change = some next →
    discipline.mayChange world change →
    discipline.invariant world →
      discipline.rely world next ∧ discipline.invariant next ∧
      (discipline.rest world → discipline.rest next)
  calls : ∀ {before after}, discipline.guarantee before after → discipline.invariant before →
    discipline.invariant after
  starts : ∀ {world seen}, system.read world = some seen → discipline.mayStart world →
    discipline.invariant world →
    discipline.rest world → discipline.Upholds seen (fun _ => discipline.rest)
      (system.pass seen) world
  crashes : ∀ {world}, discipline.mayCrash world → discipline.invariant world →
    discipline.rest world

def Holds (state : State World Request Answer Seen Result) : Prop :=
  discipline.invariant state.world ∧
    match state.underWay with
    | none => discipline.rest state.world
    | some (seen, program) => discipline.Upholds seen (fun _ => discipline.rest) program state.world

variable {discipline} {state next final : State World Request Answer Seen Result}
  {action : Action Reply Change} {actions : List (Action Reply Change)}

theorem holds_goOn {world : World} {seen : Seen} {program : Program Request Answer Result}
    (held : discipline.invariant world)
    (upholds : discipline.Upholds seen (fun _ => discipline.rest) program world) :
    discipline.Holds { world, underWay := System.goOn seen program } := by
  cases program with
  | done result => exact ⟨held, upholds⟩
  | call req next => exact ⟨held, upholds⟩

theorem Sound.step (sound : discipline.Sound) (stepped : system.step state action = some next)
    (permitted : discipline.Permits state action) (holds : discipline.Holds state) :
    discipline.Holds next ∧
      (discipline.rely state.world next.world ∨ discipline.guarantee state.world next.world) := by
  obtain ⟨held, passing⟩ := holds
  cases action with
  | change change =>
    simp only [System.step, Option.map_eq_some_iff] at stepped
    obtain ⟨world, changed, rfl⟩ := stepped
    obtain ⟨relied, kept, rested⟩ := sound.changes changed permitted held
    refine ⟨⟨kept, ?_⟩, .inl relied⟩
    cases underWay : state.underWay with
    | none =>
      simp only [underWay] at passing
      exact rested passing
    | some pass =>
      obtain ⟨seen, program⟩ := pass
      simp only [underWay] at passing
      cases program with
      | done result => exact rested passing
      | call req next =>
        intro now others
        exact passing now (sound.trans relied others)
  | start =>
    simp only [System.step] at stepped
    cases underWay : state.underWay with
    | some pass => simp [underWay] at stepped
    | none =>
      simp only [underWay, Option.map_eq_some_iff] at stepped passing
      obtain ⟨seen, read, rfl⟩ := stepped
      exact ⟨holds_goOn held (sound.starts read permitted held passing), .inl (sound.refl _)⟩
  | call reply =>
    grind [holds_goOn, Upholds, Permits, Sound, System.step]
  | crash => grind [Holds, System.step, Sound, Permits]

theorem Sound.perform (sound : discipline.Sound)
    (permitted : Stepwise system.step (fun state action _ => discipline.Permits state action)
      state actions)
    (performed : perform system.step state actions = some final) (holds : discipline.Holds state) :
    discipline.Holds final :=
  permitted.invariant (fun stepped held permits => (sound.step stepped permits held).1)
    performed holds

theorem Sound.stepwise (sound : discipline.Sound)
    (permitted : Stepwise system.step (fun state action _ => discipline.Permits state action)
      state actions)
    (holds : discipline.Holds state) :
    Stepwise system.step
      (fun state _ next => discipline.rely state.world next.world ∨
        discipline.guarantee state.world next.world)
      state actions :=
  permitted.of_invariant (fun stepped held permits => sound.step stepped permits held) holds

end Discipline

section Observed

variable {Log : Type}

def System.observed (system : System World Request Answer Reply Change Seen Result)
    (onChange : Log → World → World → Log) (onServe : Log → World → Request → World → Log) :
    System (World × Log) Request Answer Reply Change Seen Result where
  change world change := (system.change world.1 change).map fun next =>
    (next, onChange world.2 world.1 next)
  read world := system.read world.1
  pass := system.pass
  serve world request reply :=
    let (next, answer) := system.serve world.1 request reply
    ((next, onServe world.2 world.1 request next), answer)

end Observed

end Passes
