import AuditTrail.Server.Line
/-!
Servers that answer from a script, whatever they are asked. Every statement takes the next reply of
the script; a script that is used up goes on with replies that say nothing. Rows come with the columns
that a statement answers with, whether a script fills them in or leaves them out.
-/
namespace AuditTrail.Server

/-- A reply of a script. A statement may be refused when it is prepared, before it has its values,
and such a reply says nothing about a statement that is already prepared. -/
inductive ScriptedReply where
  | answer (answer : Except Fault Reply)
  | unprepared

/-- What a server will do: how it greets a client, how it answers the beginning and the end of a
transaction, and its replies to statements. -/
structure Script where
  greeting : Greeting
  beginning : Except Fault Reply
  committing : Except Fault Reply
  replies : List ScriptedReply

namespace Script

def next (s : Script) : Except Fault Reply × Script :=
  match s.replies with
  | [] => (.ok Reply.empty, s)
  | .answer a :: rest => (a, { s with replies := rest })
  | .unprepared :: rest => (.ok Reply.empty, { s with replies := rest })

/-- Runs a query, which gives rows of its own columns only. -/
def execute (q : Query) (s : Script) : Except Fault Reply × Script :=
  let (answer, s) := s.next
  (answer.map fun reply => { reply with rows := reply.rows.map (Row.only q.columns) }, s)

/-- Prepares a statement, which takes a reply only if it is refused. -/
def prepare (s : Script) : Except Fault Reply × Script :=
  match s.replies with
  | .unprepared :: rest => (.error .refused, { s with replies := rest })
  | _ => (.ok Reply.empty, s)

def answer : Request → Script → Except Fault Reply × Script
  | .begin, s => (s.beginning, s)
  | .commit, s => (s.committing, s)
  | .rollback, s | .connection, s => (.ok Reply.empty, s)
  | .prepare _, s => s.prepare
  | .script _, s => s.next
  | .execute q, s => s.execute q

end Script

/-- The server that answers from a script, if it can be reached. -/
def Peer.scripted (reachable : Bool) : Peer Script where
  reachable := reachable
  greet s := (s.greeting, s)
  answer := Script.answer

end AuditTrail.Server
