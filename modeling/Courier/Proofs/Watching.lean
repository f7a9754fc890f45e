import Courier.Health.Check
import Courier.Proofs.Pipeline
import Courier.Simulation.World

/-!
The watch over a lost database. Any number of health checks share one memory of findings, and go on
at once with the watch that a finding may start. They take turns at single requests, so also
wherever they wait. A finding may stop to count at any time, a ping may come to anything, and nobody
tells the watch to stop.
-/
namespace Courier.Health

open Prog

/-- A watch: how many rounds are over, and what is left of the one it is in. -/
structure Watch where
  rounds : Nat
  rest : Prog Bool

/-- What lies with nobody here: whether a finding still counts, and what a ping comes to. -/
structure Chance where
  counts : Bool
  ping : Option (Except Error Unit)

/-- No finding counts, and a ping is answered. -/
def Chance.found : Chance := ⟨false, some (.ok ())⟩

/-- The checks that have begun and the watches that have not ended, over one memory. -/
structure Monitor where
  memory : Memory
  checks : List (Prog Readiness)
  watches : List Watch

namespace Watch

def round (config : Config) (rounds : Nat) : Watch := ⟨rounds, (watchRound config rounds).quiet⟩

/-- The watch that goes on with the program, at the beginning of another round if this one is over.
There is none if the program gives up. -/
def next? (config : Config) (rounds : Nat) (p : Prog Bool) : Option Watch :=
  match p.quiet with
  | .done true => some (round config (rounds + 1))
  | .done false | .abort => none
  | rest => some ⟨rounds, rest⟩

/-- The watch that an answer starts. -/
def started (config : Config) : (r : Request) → r.Reply → List Watch
  | .settle _ _, .lost true => [round config 0]
  | _, _ => []

end Watch

/-- The answer to a request of a check or a watch, and what is remembered then. -/
def Memory.answer (m : Memory) (chance : Chance) : (r : Request) → Option (r.Reply × Memory)
  | .remembered d => some (if chance.counts then m.remembered d else none, m)
  | .probe _ _ => some (chance.ping, m)
  | .settle d h => some (m.settle d h)
  | .pause _ => some (false, m)
  | .endWatch found => some ((), m.endWatch found)
  | _ => none

/-- The program waits for an answer, and whatever is remembered, one can be given. -/
def Waits {α : Type} (p : Prog α) : Prop :=
  ∃ r next, p = .ask r next ∧ ∀ (m : Memory) (chance : Chance), (m.answer chance r).isSome = true

inductive Move where
  | begin
  /-- The check with that number has its next request answered. -/
  | check (number : Nat) (chance : Chance)
  | watch (number : Nat) (chance : Chance)

namespace Monitor

def initial : Monitor := ⟨.initial, [], []⟩

def step? (config : Config) (s : Monitor) : Move → Option Monitor
  | .begin => some { s with checks := s.checks ++ [(checkReady config).quiet] }
  | .check number chance =>
    match s.checks[number]? with
    | some (.ask r next) =>
      (s.memory.answer chance r).map fun (reply, memory) =>
        { memory
          checks := s.checks.set number (next reply).quiet
          watches := s.watches ++ Watch.started config r reply }
    | _ => none
  | .watch number chance =>
    match s.watches[number]? with
    | some ⟨rounds, .ask r next⟩ =>
      (s.memory.answer chance r).map fun (reply, memory) =>
        { s with
          memory
          watches := s.watches.eraseIdx number ++ (Watch.next? config rounds (next reply)).toList ++
            Watch.started config r reply }
    | _ => none

/-- The monitor after some moves, if all of them can be made. -/
def run? (config : Config) : Monitor → List Move → Option Monitor
  | s, [] => some s
  | s, m :: rest => (s.step? config m).bind fun next => next.run? config rest

inductive Reachable (config : Config) : Monitor → Prop
  | initial : Reachable config initial
  | step {s next : Monitor} {m : Move} (reached : Reachable config s)
      (moved : s.step? config m = some next) : Reachable config next

theorem Reachable.run {config : Config} {s final : Monitor} {moves : List Move}
    (reached : Reachable config s) (h : s.run? config moves = some final) :
    Reachable config final := by
  induction moves generalizing s with
  | nil =>
      cases h
      exact reached
  | cons m rest ih =>
      obtain ⟨next, moved, h⟩ := Option.bind_eq_some_iff.mp h
      exact ih (.step reached moved) h

inductive Step (config : Config) (s : Monitor) : Move → Monitor → Prop
  | begin : Step config s .begin { s with checks := s.checks ++ [(checkReady config).quiet] }
  | check {number : Nat} {chance : Chance} {r : Request} {next : r.Reply → Prog Readiness}
      {reply : r.Reply} {memory : Memory} (asks : s.checks[number]? = some (.ask r next))
      (answered : s.memory.answer chance r = some (reply, memory)) :
      Step config s (.check number chance)
        { memory
          checks := s.checks.set number (next reply).quiet
          watches := s.watches ++ Watch.started config r reply }
  | watch {number : Nat} {chance : Chance} {rounds : Nat} {r : Request} {next : r.Reply → Prog Bool}
      {reply : r.Reply} {memory : Memory} (asks : s.watches[number]? = some ⟨rounds, .ask r next⟩)
      (answered : s.memory.answer chance r = some (reply, memory)) :
      Step config s (.watch number chance)
        { s with
          memory
          watches := s.watches.eraseIdx number ++ (Watch.next? config rounds (next reply)).toList ++
            Watch.started config r reply }

theorem step_of_step? {config : Config} {s next : Monitor} {m : Move}
    (h : s.step? config m = some next) : Step config s m next := by
  cases m with
  | begin =>
      cases h
      exact .begin
  | check number chance =>
      simp only [step?] at h
      split at h
      · rename_i r k asks
        obtain ⟨⟨reply, memory⟩, answered, rfl⟩ := Option.map_eq_some_iff.mp h
        exact .check asks answered
      · cases h
  | watch number chance =>
      simp only [step?] at h
      split at h
      · rename_i rounds r k asks
        obtain ⟨⟨reply, memory⟩, answered, rfl⟩ := Option.map_eq_some_iff.mp h
        exact .watch asks answered
      · cases h

end Monitor

/-- What is left of a round of a watch that nobody tells to stop. It gives up only once it has
marked the end of the watch, because the database was found, and it leaves the rest to another round
only after a ping of the database that was not answered. -/
def Vigilant : Prog Bool → Prop
  | .done more => more = true
  | .abort => False
  | .log _ rest => Vigilant rest
  | .ask (.pause _) next => (next false).quiet ≠ .done true ∧ Vigilant (next false)
  | .ask (.probe d _) next =>
    d = .database ∧ (next (some (.ok ()))).quiet ≠ .done true ∧ ∀ reply, Vigilant (next reply)
  | .ask (.endWatch found) next => found = true ∧ next () = .done false
  | .ask _ _ => False

def Finding (config : Config) (d : Dependency) (h : Health) : Prop :=
  ∃ ping, h = ofPing d config.probeLimit ping

/-- What is left of a check that takes nothing for a finding but what a ping came to, or what is
remembered of one. -/
def Honest (config : Config) : Prog Readiness → Prop
  | .done found => Finding config .database found.database ∧ Finding config .queue found.queue
  | .abort => False
  | .log _ rest => Honest config rest
  | .ask (.remembered d) next =>
    ∀ last : Option Health, (∀ h, last = some h → Finding config d h) → Honest config (next last)
  | .ask (.probe _ _) next => ∀ ping, Honest config (next ping)
  | .ask (.settle d h) next => Finding config d h ∧ ∀ change, Honest config (next change)
  | .ask _ _ => False

variable {config : Config} {rounds : Nat} {p : Prog Bool} {m memory : Memory} {chance : Chance}
  {r : Request} {reply : r.Reply} {d : Dependency} {h : Health} {s next : Monitor}

theorem Vigilant.quiet (vigilant : Vigilant p) : Vigilant p.quiet := by
  induction p with
  | log e rest ih => exact ih vigilant
  | _ => exact vigilant

theorem Vigilant.waits (vigilant : Vigilant p) : p.quiet = .done true ∨ Waits p.quiet := by
  induction p with
  | done more => exact .inl (congrArg done vigilant)
  | abort => cases vigilant
  | log e rest ih => exact ih vigilant
  | ask r next _ =>
      cases r with
      | pause | probe | endWatch => exact .inr ⟨_, _, rfl, fun _ _ => rfl⟩
      | _ => cases vigilant

theorem vigilant_watchRound (config : Config) (rounds : Nat) :
    Vigilant (watchRound config rounds) := by
  refine ⟨nofun, rfl, nofun, fun reply => ?_⟩
  match reply with
  | some (.ok ()) => exact ⟨rfl, rfl⟩
  | some (.error e) => rfl
  | none => rfl

theorem Honest.quiet {p : Prog Readiness} (honest : Honest config p) : Honest config p.quiet := by
  induction p with
  | log e rest ih => exact ih honest
  | _ => exact honest

theorem Honest.waits {p : Prog Readiness} (honest : Honest config p) :
    (∃ found, p.quiet = .done found) ∨ Waits p.quiet := by
  induction p with
  | done found => exact .inl ⟨found, rfl⟩
  | abort => cases honest
  | log e rest ih => exact ih honest
  | ask r next _ =>
      cases r with
      | remembered | probe | settle => exact .inr ⟨_, _, rfl, fun _ _ => rfl⟩
      | _ => cases honest

theorem honest_check {f : Health → Prog Readiness}
    (rest : ∀ h, Finding config d h → Honest config (f h)) :
    Honest config (check config d >>= f) := by
  intro last known
  cases last with
  | some h => exact rest h (known h rfl)
  | none =>
      intro ping
      refine ⟨⟨ping, rfl⟩, fun change => ?_⟩
      show Honest config ((noteAll _ >>= fun _ => pure _) >>= f)
      generalize events _ d change = es
      induction es with
      | nil => exact rest _ ⟨ping, rfl⟩
      | cons e es ih => exact ih

theorem honest_checkReady (config : Config) : Honest config (checkReady config) :=
  honest_check fun _ database => honest_check fun _ queue => ⟨database, queue⟩

/-- An answer to a watch that goes on leaves the memory as it is. The last one marks the end of the
watch, which has found the database. -/
theorem Vigilant.answer {next : r.Reply → Prog Bool} (vigilant : Vigilant (.ask r next))
    (config : Config) (answered : m.answer chance r = some (reply, memory)) :
    Watch.started config r reply = [] ∧
      (memory = m ∧ Vigilant (next reply) ∨
        memory = m.endWatch true ∧ next reply = .done false) := by
  cases r with
  | pause time =>
      cases answered
      exact ⟨rfl, .inl ⟨rfl, vigilant.2⟩⟩
  | probe d limit =>
      cases answered
      exact ⟨rfl, .inl ⟨rfl, vigilant.2.2 chance.ping⟩⟩
  | endWatch found =>
      obtain ⟨rfl, gone⟩ := vigilant
      cases answered
      exact ⟨rfl, .inr ⟨rfl, gone⟩⟩
  | _ => cases vigilant

namespace Watch

/-- The watch does not give up, and it waits for something. -/
structure Awake (w : Watch) : Prop where
  vigilant : Vigilant w.rest
  waits : Waits w.rest

theorem awake_round (config : Config) (rounds : Nat) : (round config rounds).Awake :=
  ⟨(vigilant_watchRound config rounds).quiet, _, _, rfl, fun _ _ => rfl⟩

/-- A watch that does not give up goes on, in this round or in the next one. -/
theorem next?_of_vigilant (config : Config) (rounds : Nat) (vigilant : Vigilant p) :
    ∃ w, next? config rounds p = some w ∧ w.Awake := by
  rcases vigilant.waits with finished | waits
  · exact ⟨round config (rounds + 1), by rw [next?, finished], awake_round config (rounds + 1)⟩
  · refine ⟨⟨rounds, p.quiet⟩, ?_, vigilant.quiet, waits⟩
    obtain ⟨r, next, asks, _⟩ := waits
    rw [next?, asks]

theorem next?_of_open (config : Config) (rounds : Nat) (vigilant : Vigilant p)
    (isOpen : p.quiet ≠ .done true) : next? config rounds p = some ⟨rounds, p.quiet⟩ := by
  obtain ⟨r, next, asks, _⟩ := vigilant.waits.resolve_left isOpen
  rw [next?, asks]

theorem awake_of_mem_started {w : Watch} (mem : w ∈ started config r reply) : w.Awake := by
  unfold started at mem
  split at mem
  · obtain rfl := List.mem_singleton.mp mem
    exact awake_round config 0
  · cases mem

end Watch

namespace Memory

/-- The database is watched while the last finding about it was that it is lost. -/
def Guarded (m : Memory) : Prop := ∀ h, m.database = some h → h.healthy = false → m.watching = true

/-- What is remembered is what pings came to. -/
def Founded (config : Config) (m : Memory) : Prop :=
  ∀ d h, m.remembered d = some h → Finding config d h

theorem guarded_endWatch (m : Memory) : (m.endWatch true).Guarded := fun _ found => nomatch found

theorem Founded.endWatch (founded : m.Founded config) : (m.endWatch true).Founded config := by
  intro d h known
  cases d with
  | database => cases known
  | queue => exact founded .queue h known

theorem remembered_settle (m : Memory) (d other : Dependency) (h : Health) :
    (m.settle d h).2.remembered other = if other = d then some h else m.remembered other := by
  cases d with
  | queue => cases other <;> rfl
  | database =>
      simp only [settle]
      split
      · cases other <;> rfl
      · split <;> cases other <;> rfl

theorem Founded.settle (founded : m.Founded config) (found : Finding config d h) :
    (m.settle d h).2.Founded config := by
  intro other last known
  rw [remembered_settle] at known
  split at known
  · rename_i same
    cases known
    exact same ▸ found
  · exact founded other last known

/-- A lost database comes to be watched when it was not known to be lost before, and was watched
already when it was. -/
theorem Guarded.settle (guarded : m.Guarded) (d : Dependency) (h : Health) :
    (m.settle d h).2.Guarded := by
  cases d with
  | queue => exact guarded
  | database =>
      intro last found lost
      obtain rfl := Option.some.inj ((remembered_settle m .database .database h).symm.trans found)
      cases known : m.database with
      | none => simp [Memory.settle, known, lost]
      | some before =>
          cases healthy : before.healthy with
          | true => simp [Memory.settle, known, healthy, lost]
          | false => simp [Memory.settle, known, healthy, lost, guarded before known healthy]

/-- A watch starts exactly when the database comes to be watched. -/
theorem watching_settle (config : Config) (m : Memory) (d : Dependency) (h : Health) :
    (m.settle d h).2.watching.toNat =
      m.watching.toNat + (Watch.started config (.settle d h) (m.settle d h).1).length := by
  cases d with
  | queue => rfl
  | database =>
      simp only [Memory.settle]
      split
      · cases watching : m.watching <;> simp [Watch.started]
      · split <;> rfl

end Memory

theorem Honest.answer {next : r.Reply → Prog Readiness} (honest : Honest config (.ask r next))
    (founded : m.Founded config) (answered : m.answer chance r = some (reply, memory)) :
    Honest config (next reply) ∧ memory.Founded config ∧ (m.Guarded → memory.Guarded) ∧
      memory.watching.toNat = m.watching.toNat + (Watch.started config r reply).length := by
  cases r with
  | remembered d =>
      cases answered
      refine ⟨honest _ ?_, founded, id, rfl⟩
      intro h known
      split at known
      · exact founded d h known
      · cases known
  | probe d limit =>
      cases answered
      exact ⟨honest chance.ping, founded, id, rfl⟩
  | settle d h =>
      obtain ⟨found, rest⟩ := honest
      obtain ⟨rfl, rfl⟩ := Prod.mk.inj (Option.some.inj answered)
      exact ⟨rest _, founded.settle found, fun guarded => guarded.settle d h,
        Memory.watching_settle config m d h⟩
  | _ => cases honest

/-- One watch is alive while the monitor is marked as watching, and it is while the last finding
about the database was that it is lost. -/
structure Monitor.Sound (config : Config) (s : Monitor) : Prop where
  honest : ∀ p ∈ s.checks, Honest config p ∧ ((∃ found, p = .done found) ∨ Waits p)
  founded : s.memory.Founded config
  awake : ∀ w ∈ s.watches, w.Awake
  alive : s.watches.length = s.memory.watching.toNat
  guarded : s.memory.Guarded

namespace Monitor

theorem sound_initial (config : Config) : initial.Sound config where
  honest _ mem := nomatch mem
  founded d _ known := by cases d <;> cases known
  awake _ mem := nomatch mem
  alive := rfl
  guarded _ known := nomatch known

theorem Sound.begin (sound : s.Sound config) :
    Sound config { s with checks := s.checks ++ [(checkReady config).quiet] } := by
  refine ⟨?_, sound.founded, sound.awake, sound.alive, sound.guarded⟩
  intro p mem
  rcases List.mem_append.mp mem with old | new
  · exact sound.honest p old
  · obtain rfl := List.mem_singleton.mp new
    exact ⟨(honest_checkReady config).quiet, (honest_checkReady config).waits⟩

/-- A check starts a watch if there is to be one, and leaves the one there is alone. -/
theorem Sound.check {number : Nat} {next : r.Reply → Prog Readiness} (sound : s.Sound config)
    (asks : s.checks[number]? = some (.ask r next))
    (answered : s.memory.answer chance r = some (reply, memory)) :
    Sound config
      { memory
        checks := s.checks.set number (next reply).quiet
        watches := s.watches ++ Watch.started config r reply } := by
  have honest : Honest config (.ask r next) := (sound.honest _ (List.mem_of_getElem? asks)).1
  obtain ⟨onward, founded, guarded, counted⟩ := honest.answer sound.founded answered
  constructor
  case honest =>
    intro p mem
    rcases List.mem_or_eq_of_mem_set mem with old | rfl
    · exact sound.honest p old
    · exact ⟨onward.quiet, onward.waits⟩
  case founded => exact founded
  case awake =>
    intro w mem
    rcases List.mem_append.mp mem with old | new
    · exact sound.awake w old
    · exact Watch.awake_of_mem_started new
  case alive => rw [List.length_append, sound.alive, counted]
  case guarded => exact guarded sound.guarded

/-- The watch goes on as the only one, or ends together with its mark and with the finding that
called for it. -/
theorem Sound.watch {number rounds : Nat} {next : r.Reply → Prog Bool} (sound : s.Sound config)
    (asks : s.watches[number]? = some ⟨rounds, .ask r next⟩)
    (answered : s.memory.answer chance r = some (reply, memory)) :
    Sound config
      { s with
        memory
        watches := s.watches.eraseIdx number ++ (Watch.next? config rounds (next reply)).toList ++
          Watch.started config r reply } := by
  have vigilant : Vigilant (.ask r next) := (sound.awake _ (List.mem_of_getElem? asks)).vigilant
  obtain ⟨bound, _⟩ := List.getElem?_eq_some_iff.mp asks
  have marked : s.memory.watching = true := by
    have some : 0 < s.memory.watching.toNat := sound.alive ▸ Nat.zero_lt_of_lt bound
    exact Bool.toNat_eq_one.mp (Nat.le_antisymm (Bool.toNat_le _) some)
  have alone : s.watches.eraseIdx number = [] := by
    apply List.eq_nil_of_length_eq_zero
    rw [List.length_eraseIdx_of_lt bound, sound.alive, marked]
    rfl
  obtain ⟨quiet, going | ending⟩ := vigilant.answer config answered
  · obtain ⟨rfl, onward⟩ := going
    obtain ⟨w, goes, awake⟩ := Watch.next?_of_vigilant config rounds onward
    rw [alone, quiet, goes]
    refine ⟨sound.honest, sound.founded, ?_, ?_, sound.guarded⟩
    · intro other mem
      obtain rfl := List.mem_singleton.mp mem
      exact awake
    · rw [marked]
      rfl
  · obtain ⟨rfl, last⟩ := ending
    have gone : Watch.next? config rounds (next reply) = none := by
      rw [last]
      rfl
    rw [alone, quiet, gone]
    exact ⟨sound.honest, sound.founded.endWatch, fun _ mem => (nomatch mem), rfl,
      Memory.guarded_endWatch _⟩

theorem sound_of_reachable (reached : Reachable config s) : s.Sound config := by
  induction reached with
  | initial => exact sound_initial config
  | step _ moved ih =>
      cases step_of_step? moved with
      | begin => exact ih.begin
      | check asks answered => exact ih.check asks answered
      | watch asks answered => exact ih.watch asks answered

/-- Nothing gets stuck. A check that is not over and a watch can go on, whatever the next answer is
to be. -/
theorem Reachable.goes_on (reached : Reachable config s) (chance : Chance) :
    (∀ (number : Nat) (p : Prog Readiness), s.checks[number]? = some p →
      (∃ found, p = .done found) ∨ (s.step? config (.check number chance)).isSome = true) ∧
    ∀ (number : Nat) (w : Watch), s.watches[number]? = some w →
      (s.step? config (.watch number chance)).isSome = true := by
  have sound := sound_of_reachable reached
  constructor
  · intro number p begun
    obtain ⟨_, ended | ⟨r, k, rfl, answers⟩⟩ := sound.honest p (List.mem_of_getElem? begun)
    · exact .inl ended
    · simp only [step?, begun, Option.isSome_map]
      exact .inr (answers s.memory chance)
  · rintro number ⟨rounds, rest⟩ begun
    obtain ⟨r, k, waits, answers⟩ := (sound.awake _ (List.mem_of_getElem? begun)).waits
    obtain rfl : rest = .ask r k := waits
    simp only [step?, begun, Option.isSome_map]
    exact answers s.memory chance

theorem step?_of_only (config : Config) (chance : Chance) {next : r.Reply → Prog Bool}
    (only : s.watches = [⟨rounds, .ask r next⟩])
    (answered : s.memory.answer chance r = some (reply, memory)) :
    s.step? config (.watch 0 chance) =
      some ⟨memory, s.checks,
        (Watch.next? config rounds (next reply)).toList ++ Watch.started config r reply⟩ := by
  simp [step?, only, answered]

/-- A watch whose pings are answered comes to its end, and the finding that called for it is
forgotten. -/
theorem run?_of_found (rounds : Nat) (vigilant : Vigilant p) (isOpen : p.quiet ≠ .done true)
    (only : s.watches = [⟨rounds, p.quiet⟩]) :
    ∃ turns t, s.run? config (List.replicate turns (.watch 0 .found)) = some t ∧
      t.watches = [] ∧ t.memory.watching = false ∧ t.memory.database = none := by
  induction p generalizing s with
  | done more => exact absurd (congrArg Prog.done vigilant) isOpen
  | abort => cases vigilant
  | log e rest ih => exact ih vigilant isOpen only
  | ask r next ih =>
      -- if the round is not over after the answer, the watch goes on with what is left of it
      have goes {reply : r.Reply} (answered : s.memory.answer .found r = some (reply, s.memory))
          (starts : Watch.started config r reply = []) (onward : Vigilant (next reply))
          (isOpen : (next reply).quiet ≠ .done true) :
          ∃ turns t, s.run? config (List.replicate turns (.watch 0 .found)) = some t ∧
            t.watches = [] ∧ t.memory.watching = false ∧ t.memory.database = none := by
        obtain ⟨turns, t, run, ended⟩ := ih reply onward isOpen
          (s := ⟨s.memory, s.checks, [⟨rounds, (next reply).quiet⟩]⟩) rfl
        refine ⟨turns + 1, t, ?_, ended⟩
        rw [List.replicate_succ, run?, step?_of_only config .found only answered, starts,
          Watch.next?_of_open config rounds onward isOpen]
        exact run
      cases r with
      | pause time => exact goes rfl rfl vigilant.2 vigilant.1
      | probe d limit => exact goes rfl rfl (vigilant.2.2 _) vigilant.2.1
      | endWatch found =>
          obtain ⟨rfl, gone⟩ := vigilant
          refine ⟨1, ⟨s.memory.endWatch true, s.checks, []⟩, ?_, rfl, rfl, rfl⟩
          rw [List.replicate_one, run?, step?_of_only config .found only rfl, gone]
          rfl
      | _ => cases vigilant

end Monitor

section Simulation

open Simulation (World Task Progress)

variable {w w' : World} {yields : Bool} {progress : Option Progress}

def watchesOf (w : World) : List Task := w.tasks.filter fun t => t.role = .watch

theorem watchesOf_settle (config : Config) (w : World) (d : Dependency) (h : Health) :
    (watchesOf (w.settle d h).2).length =
      (watchesOf w).length + (Watch.started config (.settle d h) (w.settle d h).1).length := by
  unfold World.settle Watch.started
  cases change : (w.health.settle d h).1 with
  | lost start => cases start <;> simp [change, watchesOf, World.spawn]
  | _ => simp [change, watchesOf]

/-- The world in which programs run gives checks and watches no other answers, as long as it does
not stop the watch, and it starts one in the background when one starts here. -/
theorem answer_of_poll (asked : (w.health.answer ⟨false, none⟩ r).isSome = true)
    (polled : w.poll false yields progress r = .ready reply w') :
    ∃ chance, w.health.answer chance r = some (reply, w'.health) ∧
      (watchesOf w').length =
        (watchesOf w).length + (Watch.started w.setup.app.health r reply).length := by
  cases r with
  | remembered d =>
      cases polled
      exact ⟨⟨w.setup.remembers, none⟩, rfl, rfl⟩
  | probe d limit =>
      -- the world is as before when the answer to a ping comes
      have same : w' = w := by
        cases progress with
        | some progress =>
            simp only [World.poll, World.probe] at polled
            split at polled <;> cases polled
            rfl
        | none =>
            cases d <;> simp only [World.poll, World.probe] at polled <;> split at polled <;>
              cases polled <;> rfl
      exact ⟨⟨false, reply⟩, by rw [same]; rfl, by rw [same]; rfl⟩
  | pause time =>
      simp only [World.poll, World.pause] at polled
      split at polled
      · contradiction
      · split at polled <;> cases polled
        exact ⟨⟨false, none⟩, rfl, rfl⟩
  | settle d h =>
      have settled : w.settle d h = (reply, w') := by
        simp only [World.poll] at polled
        injection polled with same here
        exact Prod.ext same here
      have memory : w.health.settle d h = ((w.settle d h).1, (w.settle d h).2.health) := by
        unfold World.settle
        simp only []
        split <;> rfl
      have counted := watchesOf_settle w.setup.app.health w d h
      rw [settled] at memory counted
      exact ⟨⟨false, none⟩, congrArg some memory, counted⟩
  | endWatch found =>
      cases polled
      exact ⟨⟨false, none⟩, rfl, rfl⟩
  | _ => cases asked

end Simulation

theorem Readiness.degraded_iff (found : Readiness) :
    found.degraded = true ↔ found.database.healthy = false ∨ found.queue.healthy = false := by
  cases database : found.database.healthy <;> simp [degraded, database]

/-- A lost database is watched, by one watch only, and the mark says so. The watch there is can
always go on, does not give up before a ping of the database is answered, and comes to its end once
one is. A check that is not over can go on too. The pipeline is ready whatever a check has found,
and degraded if one of the two was not found. -/
structure Monitor.Watched (config : Config) (s : Monitor) : Prop where
  single : s.watches.length ≤ 1
  marked_iff : s.memory.watching = true ↔ s.watches.length = 1
  lost : ∀ h, s.memory.database = some h → h.healthy = false → s.watches.length = 1
  alive : ∀ number w, s.watches[number]? = some w →
    ∀ chance, (s.step? config (.watch number chance)).isSome = true
  vigilant : ∀ w ∈ s.watches, Vigilant w.rest
  ends : s.watches.length = 1 → ∃ turns t,
    s.run? config (List.replicate turns (.watch 0 .found)) = some t ∧
      t.watches = [] ∧ t.memory.watching = false ∧ t.memory.database = none
  going : ∀ number p, s.checks[number]? = some p → (∀ found, p ≠ .done found) →
    ∀ chance, (s.step? config (.check number chance)).isSome = true
  reported : ∀ found, .done found ∈ s.checks →
    found.ready = true ∧
    (found.degraded = true ↔ found.database.healthy = false ∨ found.queue.healthy = false) ∧
    Finding config .database found.database ∧ Finding config .queue found.queue

/-- However checks and watches meet, a database that was last found lost is being watched. -/
theorem lost_database_watched (reached : Monitor.Reachable config s) : s.Watched config := by
  have sound := Monitor.sound_of_reachable reached
  have marked : s.memory.watching = true ↔ s.watches.length = 1 := by
    rw [sound.alive, Bool.toNat_eq_one]
  constructor
  case single =>
    rw [sound.alive]
    exact Bool.toNat_le _
  case marked_iff => exact marked
  case lost => exact fun h known lost => marked.mp (sound.guarded h known lost)
  case alive => exact fun number w begun chance => (reached.goes_on chance).2 number w begun
  case vigilant => exact fun w mem => (sound.awake w mem).vigilant
  case ends =>
    intro one
    obtain ⟨⟨rounds, rest⟩, only⟩ := List.length_eq_one_iff.mp one
    obtain ⟨vigilant, r, next, rfl, _⟩ := sound.awake _ (only ▸ List.mem_singleton_self _)
    exact Monitor.run?_of_found rounds vigilant nofun only
  case going =>
    intro number p begun unfinished chance
    rcases (reached.goes_on chance).1 number p begun with ⟨found, ended⟩ | goes
    · exact absurd ended (unfinished found)
    · exact goes
  case reported =>
    exact fun found ended => ⟨rfl, found.degraded_iff, (sound.honest _ ended).1⟩

namespace Sample

def outage : Chance := ⟨false, none⟩

/-- Two checks probe the database before either of them has told what it found. The first one starts
a watch, goes on to the queue and ends. -/
def twoChecks : List Move :=
  [.begin, .begin, .check 0 outage, .check 1 outage, .check 0 outage, .check 1 outage,
    .check 0 outage, .check 1 outage, .check 0 .found, .check 0 .found, .check 0 .found]

end Sample

/-- Both checks find the database lost, and one watch is started, which can go on until it finds the
database. -/
theorem lost_database_watched_by_two_checks :
    ∃ s, Monitor.initial.run? .standard Sample.twoChecks = some s ∧ s.memory.watching = true ∧
      s.watches.length = 1 ∧
      (∀ chance, (s.step? .standard (.watch 0 chance)).isSome = true) ∧
      (∃ turns t, s.run? .standard (List.replicate turns (.watch 0 .found)) = some t ∧
        t.watches = [] ∧ t.memory.watching = false ∧ t.memory.database = none) ∧
      ∃ lost, .done lost ∈ s.checks ∧ lost.ready = true ∧ lost.degraded = true := by
  have run : ∃ s, Monitor.initial.run? .standard Sample.twoChecks = some s ∧
      s.memory.watching = true ∧ ∃ lost, .done lost ∈ s.checks ∧ lost.degraded = true :=
    ⟨_, rfl, rfl, _, List.mem_cons_self, rfl⟩
  obtain ⟨s, run, marked, lost, ended, degraded⟩ := run
  have watched := lost_database_watched (Monitor.Reachable.initial.run run)
  have one := watched.marked_iff.mp marked
  obtain ⟨w, alone⟩ := List.length_eq_one_iff.mp one
  have first : s.watches[0]? = some w := by rw [alone, List.getElem?_cons_zero]
  exact ⟨s, run, marked, one, watched.alive 0 w first, watched.ends one, lost, ended,
    (watched.reported lost ended).1, degraded⟩

end Courier.Health
