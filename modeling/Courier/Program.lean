import Courier.EmitError
import Courier.Event
import Courier.Health.Basic
import Courier.Job
import Courier.Message
import Courier.Queue
import Courier.RateLimit.Bucket

/-!
Programs of the pipeline. A program asks its surroundings for one thing at a time, and goes on with
the answer; in between it may log events. Whoever runs programs decides what happens between two
requests, so the same definitions describe a single caller and any number of them at once.
-/
namespace Courier

inductive Request where
  | now
  /-- Seconds of real time since 1970. -/
  | wallSeconds
  /-- An identifier that nothing has yet. -/
  | freshId
  /-- A random number below the bound. -/
  | draw (bound : Nat)
  | get (id : Uuid)
  | insert (n : Notification)
  | update (n : Notification)
  | scan (filter : Filter)
  | enqueue (job : Job)
  | ack (token : Uuid)
  | depth
  /-- A job, if one becomes visible within the waiting time; nothing at all if the worker is told to
  stop. -/
  | lease (wait leaseFor : Duration)
  /-- Lets time pass; the answer says whether the task was told to stop meanwhile. -/
  | pause (time : Duration)
  /-- Hands a message to the provider of a channel; no answer comes if it takes too long. -/
  | send (channel : Channel) (recipient : String) (message : Message) (limit : Duration)
  /-- Pings a dependency; no answer comes if it takes too long. -/
  | probe (d : Dependency) (limit : Duration)
  /-- What is remembered of a dependency, while that still counts. -/
  | remembered (d : Dependency)
  | settle (d : Dependency) (h : Health)
  | endWatch (found : Bool)
  /-- A token from the bucket of a key at a clock reading. -/
  | acquire (config : RateLimit.Config Float) (key : String) (now : Instant)
  /-- Asks a remote service about a credential; the answer says why it could not be reached. -/
  | introspect (url : String)

@[reducible] def Request.Reply : Request → Type
  | now => Instant
  | wallSeconds => Nat
  | freshId => Uuid
  | draw _ => Nat
  | get _ => Except Error (Option Notification)
  | insert _ => Except Error Unit
  | update _ => Except Error Notification
  | scan _ => Except Error (List Notification)
  | enqueue _ => Except Error Unit
  | ack _ => Except Error Bool
  | depth => Except Error Queue.Depth
  | lease _ _ => Option (Except Error (Option Lease))
  | pause _ => Bool
  | send _ _ _ _ => Option (Except EmitError Unit)
  | probe _ _ => Option (Except Error Unit)
  | remembered _ => Option Health
  | settle _ _ => Health.Change
  | endWatch _ => Unit
  | acquire _ _ _ => Except Error (RateLimit.Grant Float)
  | introspect _ => String

inductive Prog (α : Type) where
  | done (a : α)
  /-- The call breaks off: a date or a duration is out of range. -/
  | abort
  | log (e : Event) (rest : Prog α)
  | ask (r : Request) (next : r.Reply → Prog α)

namespace Prog

variable {α β γ : Type}

def bind : Prog α → (α → Prog β) → Prog β
  | done a, f => f a
  | abort, _ => abort
  | log e rest, f => log e (rest.bind f)
  | ask r next, f => ask r fun reply => (next reply).bind f

instance : Monad Prog where
  pure := done
  bind := bind

@[simp] theorem pure_bind (a : α) (f : α → Prog β) : (pure a : Prog α) >>= f = f a := rfl

@[simp] theorem done_bind (a : α) (f : α → Prog β) : done a >>= f = f a := rfl

@[simp] theorem abort_bind (f : α → Prog β) : (abort : Prog α) >>= f = abort := rfl

@[simp] theorem log_bind (e : Event) (p : Prog α) (f : α → Prog β) :
    log e p >>= f = log e (p >>= f) := rfl

@[simp] theorem ask_bind (r : Request) (next : r.Reply → Prog α) (f : α → Prog β) :
    ask r next >>= f = ask r fun reply => next reply >>= f := rfl

theorem bind_assoc (p : Prog α) (f : α → Prog β) (g : β → Prog γ) :
    p >>= f >>= g = p >>= fun a => f a >>= g := by
  induction p with
  | done a => rfl
  | abort => rfl
  | log e rest ih => simp only [log_bind, ih]
  | ask r next ih => simp only [ask_bind, ih]

def note (e : Event) : Prog Unit := log e (done ())

def noteAll : List Event → Prog Unit
  | [] => done ()
  | e :: rest => log e (noteAll rest)

/-- Goes on with the value, or breaks off if there is none. -/
def orAbort : Option α → Prog α
  | some a => done a
  | none => abort

def now : Prog Instant := ask .now done

def wallSeconds : Prog Nat := ask .wallSeconds done

def freshId : Prog Uuid := ask .freshId done

def draw (bound : Nat) : Prog Nat := ask (.draw bound) done

def get (id : Uuid) : Prog (Except Error (Option Notification)) := ask (.get id) done

def insert (n : Notification) : Prog (Except Error Unit) := ask (.insert n) done

def update (n : Notification) : Prog (Except Error Notification) := ask (.update n) done

def scan (filter : Filter) : Prog (Except Error (List Notification)) := ask (.scan filter) done

def enqueue (job : Job) : Prog (Except Error Unit) := ask (.enqueue job) done

def ack (token : Uuid) : Prog (Except Error Bool) := ask (.ack token) done

def depth : Prog (Except Error Queue.Depth) := ask .depth done

def lease (wait leaseFor : Duration) : Prog (Option (Except Error (Option Lease))) :=
  ask (.lease wait leaseFor) done

def pause (time : Duration) : Prog Bool := ask (.pause time) done

def send (channel : Channel) (recipient : String) (message : Message) (limit : Duration) :
    Prog (Option (Except EmitError Unit)) :=
  ask (.send channel recipient message limit) done

def probe (d : Dependency) (limit : Duration) : Prog (Option (Except Error Unit)) :=
  ask (.probe d limit) done

def remembered (d : Dependency) : Prog (Option Health) := ask (.remembered d) done

def settle (d : Dependency) (h : Health) : Prog Health.Change := ask (.settle d h) done

def endWatch (found : Bool) : Prog Unit := ask (.endWatch found) done

def acquire (config : RateLimit.Config Float) (key : String) (now : Instant) :
    Prog (Except Error (RateLimit.Grant Float)) :=
  ask (.acquire config key now) done

def introspect (url : String) : Prog String := ask (.introspect url) done

end Prog
end Courier
