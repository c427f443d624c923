import AuditTrail.Config.Server
import AuditTrail.Server.Dialogue
import AuditTrail.Statement.Text
/-!
Carrying out dialogues on a line to a server. A line keeps one connection, makes a new one when it
is lost, and remembers what it has sent. What the server at the other end does is a parameter.
-/
namespace AuditTrail.Server

def Query.text : Query → String
  | probe => "SELECT 1"
  | statement s => s.text .server

def Query.values : Query → List Datum
  | probe => []
  | statement s => (s.values .server).map Value.datum

/-- The columns of the rows that a query gives. A probe tells nothing. -/
def Query.columns : Query → List Column
  | probe => []
  | statement s => s.columns

/-- What a server says to a client that wants to connect. -/
inductive Greeting where
  | welcome
  | passwordWanted
  | refused
  | closed
deriving DecidableEq, Repr

/-- A server at the other end of a line, in states of some type: whether it can be reached, how it
greets a client, and how it answers a request. -/
structure Peer (σ : Type) where
  reachable : Bool
  greet : σ → Greeting × σ
  answer : Request → σ → Except Fault Reply × σ

/-- Something that was sent. Of what is prepared only that counts which the server has refused. -/
inductive Sent where
  | encryption
  | startup (user database options : String)
  | password (text : String)
  | begin
  | commit
  | rollback
  | script (text : String)
  | refused (q : Query)
  | query (q : Query)
deriving DecidableEq

/-- The state of a line. -/
structure Line where
  config : ServerConfig
  connected : Bool
  sent : List Sent
  log : List String
deriving DecidableEq

namespace Line

variable {σ : Type}

def idle (config : ServerConfig) : Line := ⟨config, false, [], []⟩

/-- The line after something was sent. -/
def send (s : Sent) (l : Line) : Line :=
  { l with sent := l.sent ++ [s] }

def forget (l : Line) : Line :=
  { l with sent := [], log := [] }

def startup (c : ServerConfig) : Sent :=
  .startup c.user c.database c.sessionOptions

/-- Connects. Encrypted connections are asked for but cannot be made. -/
def dial (peer : Peer σ) (l : Line) (s : σ) : Except Fault Unit × Line × σ :=
  if !peer.reachable then (.error .unreachable, l, s)
  else if l.config.sslMode = .require then (.error .noEncryption, l.send .encryption, s)
  else
    let l := l.send (startup l.config)
    match peer.greet s with
    | (.refused, s) => (.error .refused, l, s)
    | (.closed, s) => (.error .closed, l, s)
    | (.welcome, s) => (.ok (), { l with connected := true }, s)
    | (.passwordWanted, s) =>
      match l.config.password with
      | some p => (.ok (), { l.send (.password p) with connected := true }, s)
      | none => (.error .noPassword, l, s)

/-- What is sent for a request that the server answers, if that is worth remembering. -/
def trace? (r : Request) (answer : Except Fault Reply) : Option Sent :=
  match r, answer with
  | .connection, _ => none
  | .begin, _ => some .begin
  | .commit, _ => some .commit
  | .rollback, _ => some .rollback
  | .script text, _ => some (.script text)
  | .prepare q, .error .refused => some (.refused q)
  | .prepare _, _ => none
  | .execute q, _ => some (.query q)

def isLoss : Except Fault Reply → Bool
  | .error .closed => true
  | _ => false

/-- Sends a request on a connection, which may get lost. -/
def exchange (peer : Peer σ) (r : Request) (l : Line) (s : σ) : Except Fault Reply × Line × σ :=
  let (answer, s) := peer.answer r s
  let l := match trace? r answer with
    | some sent => l.send sent
    | none => l
  (answer, { l with connected := !isLoss answer }, s)

/-- Serves a request. Only asking for a connection makes one; on a lost one nothing can be sent. -/
def serve (peer : Peer σ) (r : Request) (l : Line) (s : σ) : Except Fault Reply × Line × σ :=
  match r, l.connected with
  | .connection, true => (.ok Reply.empty, l, s)
  | .connection, false =>
    let (answer, l, s) := l.dial peer s
    (answer.map fun _ => Reply.empty, l, s)
  | _, false => (.error .closed, l, s)
  | r, true => l.exchange peer r s

/-- The line after a statement was noted. -/
def note (s : Statement) (l : Line) : Line :=
  if l.config.logQueries then { l with log := l.log ++ [s.text .server] } else l

def run {α : Type} (peer : Peer σ) : Dialogue α → Line → σ → Except Error α × Line × σ
  | .done result, l, s => (result, l, s)
  | .note statement rest, l, s => run peer rest (l.note statement) s
  | .ask r next, l, s =>
    let (answer, l, s) := l.serve peer r s
    run peer (next answer) l s

def dropRollback : List Sent → List Sent
  | [] => []
  | [.rollback] => []
  | s :: rest => s :: dropRollback rest

/-- Gives up the line. A rollback that was still to be sent goes with its connection. -/
def abandon (l : Line) : Line :=
  { l with connected := false, sent := dropRollback l.sent }

end Line

end AuditTrail.Server
