/-
The other operations on the state the client guards by its lock: watchers, event handlers and `close`.
A run of the client is any sequence of operations.
-/
import ConfigDirector.Client.Store

namespace ConfigDirector.Client

open Python Evaluation

namespace ClientState

/-! ## Watchers -/

/-- `watch`, once key, default and callback have been validated. -/
def watch (s : ClientState) (key : Text) (watcher : Watcher) : ClientState :=
  { s with watchers := s.watchers.set key ((s.watchers.get? key).getD [] ++ [watcher]) }

/-- `unwatch`: all watchers of the key, or the first one with the callback. -/
def unwatch (s : ClientState) (key : Text) (callback : Option ℕ) : ClientState :=
  match s.watchers.get? key with
  | none | some [] => s
  | some entries =>
    match callback with
    | none => { s with watchers := s.watchers.set key [] }
    | some handler =>
      { s with watchers := s.watchers.set key (entries.eraseP fun watcher => watcher.handler = handler) }

def unwatchAll (s : ClientState) : ClientState := { s with watchers := ∅ }

/-- `_remove_watcher`. -/
def removeWatcher (s : ClientState) (key : Text) (ident : ℕ) : ClientState :=
  match s.watchers.get? key with
  | none => s
  | some entries =>
    if entries.any fun watcher => watcher.ident = ident then
      { s with watchers := s.watchers.set key (entries.eraseP fun watcher => watcher.ident = ident) }
    else s

/-! ## Event handlers -/

def setHandlers (s : ClientState) (event : ClientEvent) (handlers : List ℕ) : ClientState :=
  { s with handlers := fun e => if e = event then handlers else s.handlers e }

def on (s : ClientState) (event : ClientEvent) (handler : ℕ) : ClientState :=
  s.setHandlers event (s.handlers event ++ [handler])

/-- `_remove_handler`, and `off` of one handler: the first registration of it, if there is one. -/
def removeHandler (s : ClientState) (event : ClientEvent) (handler : ℕ) : ClientState :=
  s.setHandlers event ((s.handlers event).erase handler)

def off (s : ClientState) (event : ClientEvent) (handler : Option ℕ) : ClientState :=
  match handler with
  | none => s.setHandlers event []
  | some handler => s.removeHandler event handler

/-! ## Lifecycle -/

/-- The locked step of `close`. -/
def close (s : ClientState) : ClientState :=
  if s.closed then s
  else { s with closed := true, ready := false, watchers := ∅, handlers := fun _ => [] }

end ClientState

/-! ## Runs -/

inductive ClientOp
  | bundle (bundle : ConfigBundle)
  | watch (key : Text) (watcher : Watcher)
  | unwatch (key : Text) (callback : Option ℕ)
  | unwatchAll
  | removeWatcher (key : Text) (ident : ℕ)
  | on (event : ClientEvent) (handler : ℕ)
  | removeHandler (event : ClientEvent) (handler : ℕ)
  | off (event : ClientEvent) (handler : Option ℕ)
  | close

namespace ClientState

/-- One operation. -/
def perform (s : ClientState) : ClientOp → ClientState
  | .bundle bundle =>
    match s.onBundle bundle with
    | some (s', _) => s'
    | none => s
  | .watch key watcher => s.watch key watcher
  | .unwatch key callback => s.unwatch key callback
  | .unwatchAll => s.unwatchAll
  | .removeWatcher key ident => s.removeWatcher key ident
  | .on event handler => s.on event handler
  | .removeHandler event handler => s.removeHandler event handler
  | .off event handler => s.off event handler
  | .close => s.close

/-- The state after some operations. -/
def performAll (s : ClientState) (ops : List ClientOp) : ClientState := ops.foldl perform s

end ClientState

end ConfigDirector.Client
