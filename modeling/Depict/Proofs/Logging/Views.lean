import Depict.Logging.Handlers
import Mathlib.Tactic.Common

/-!
# Consoles and host handlers apart

The handlers are looked at in two views: the consoles among them and the host's own, each in
their order. Detaching and installing change the first view, and nothing but the host changes the
second.
-/
namespace Depict

/-- The console that a handler is. -/
def Handler.console? : Handler → Option Console
  | host _ => none
  | console c => some c

/-- The number of the host's handler that a handler is. -/
def Handler.host? : Handler → Option Nat
  | host n => some n
  | console _ => none

namespace Handler

@[simp] theorem console?_host (n : Nat) : (host n).console? = none := rfl

@[simp] theorem console?_console (c : Console) : (console c).console? = some c := rfl

@[simp] theorem host?_host (n : Nat) : (host n).host? = some n := rfl

@[simp] theorem host?_console (c : Console) : (console c).host? = none := rfl

end Handler

namespace Logging

/-- The consoles that receive messages. -/
def attached (l : Logging) : List Console :=
  l.handlers.filterMap Handler.console?

/-- The host's handlers that receive messages. -/
def hostNumbers (l : Logging) : List Nat :=
  l.handlers.filterMap Handler.host?

theorem filterMap_erase_of_none {α β : Type} [DecidableEq α] {f : α → Option β} {a : α}
    (h : f a = none) (l : List α) : (l.erase a).filterMap f = l.filterMap f := by
  induction l with
  | nil => rfl
  | cons b l ih =>
    by_cases hb : b = a
    · subst hb
      rw [List.erase_cons_head, List.filterMap_cons_none h]
    · rw [List.erase_cons_tail (by simpa using hb), List.filterMap_cons, List.filterMap_cons, ih]

theorem filterMap_console?_erase (c : Console) (l : List Handler) :
    (l.erase (.console c)).filterMap Handler.console? = (l.filterMap Handler.console?).erase c := by
  induction l with
  | nil => rfl
  | cons b l ih =>
    by_cases hb : b = .console c
    · subst hb
      simp
    · rw [List.erase_cons_tail (by simpa using hb)]
      cases b with
      | host n => exact ih
      | console d =>
        have hd : ¬ (d == c) = true := by
          intro h
          exact hb (congrArg Handler.console (by simpa using h))
        rw [List.filterMap_cons_some (Handler.console?_console d),
          List.filterMap_cons_some (Handler.console?_console d), List.erase_cons_tail hd, ih]

/-- Without a console, the host's handlers are all there are. -/
theorem handlers_of_attached_eq_nil {l : Logging} (h : l.attached = []) :
    l.handlers = l.hostNumbers.map .host := by
  unfold attached at h
  unfold hostNumbers
  generalize l.handlers = hs at h
  induction hs with
  | nil => rfl
  | cons b hs ih =>
    cases b with
    | host n => rw [List.filterMap_cons_some (Handler.host?_host n), List.map_cons, ← ih h]
    | console c => simp at h

@[simp] theorem hostNumbers_detach (l : Logging) : l.detach.hostNumbers = l.hostNumbers := by
  unfold detach
  split
  · rfl
  · exact filterMap_erase_of_none rfl l.handlers

@[simp] theorem consoles_detach (l : Logging) : l.detach.consoles = l.consoles := by
  unfold detach
  split <;> rfl

@[simp] theorem installed_detach (l : Logging) : l.detach.installed = l.installed := by
  unfold detach
  split <;> rfl

theorem attached_detach {l : Logging} {c : Console} (h : l.installed = some c) :
    l.detach.attached = l.attached.erase c := by
  rw [detach, h]
  exact filterMap_console?_erase c l.handlers

@[simp] theorem attached_install (l : Logging) (level : Level) (style : Style) :
    (l.install level style).attached = l.attached ++ [⟨l.consoles, level, style⟩] := by
  simp [attached, install]

@[simp] theorem hostNumbers_install (l : Logging) (level : Level) (style : Style) :
    (l.install level style).hostNumbers = l.hostNumbers := by
  simp [hostNumbers, install]

@[simp] theorem attached_addHost (l : Logging) : l.addHost.attached = l.attached := by
  simp [attached, addHost]

@[simp] theorem attached_removeHost (l : Logging) (number : Nat) :
    (l.removeHost number).attached = l.attached :=
  filterMap_erase_of_none rfl l.handlers

@[simp] theorem attached_restoreHost (l : Logging) (number : Nat) :
    (l.restoreHost number).attached = l.attached := by
  unfold restoreHost
  split
  · simp [attached]
  · rfl

@[simp] theorem installed_restoreHost (l : Logging) (number : Nat) :
    (l.restoreHost number).installed = l.installed := by
  unfold restoreHost
  split <;> rfl

@[simp] theorem consoles_restoreHost (l : Logging) (number : Nat) :
    (l.restoreHost number).consoles = l.consoles := by
  unfold restoreHost
  split <;> rfl

@[simp] theorem attached_breakClose (l : Logging) (r : Raised) :
    (l.breakClose r).attached = l.attached := by
  unfold breakClose
  split <;> rfl

@[simp] theorem installed_breakClose (l : Logging) (r : Raised) :
    (l.breakClose r).installed = l.installed := by
  unfold breakClose
  split <;> rfl

@[simp] theorem consoles_breakClose (l : Logging) (r : Raised) :
    (l.breakClose r).consoles = l.consoles := by
  unfold breakClose
  split <;> rfl

end Logging

end Depict
