import LightClient.Program.Script
/-!
# What the parts of a script do

Each part of which commands are made, with the world that it leaves behind: what is printed, read, written and said to
the node, and the deeds on record. A command is run part by part, each in the world that the one before it left
(`run_bind_of_ok`, `run_bind_of_error`).
-/
namespace LightClient

namespace World

variable {σ : Type}

@[simp] theorem disk_record (w : World σ) (deed : Deed) : (w.record deed).disk = w.disk := rfl

@[simp] theorem node_record (w : World σ) (deed : Deed) : (w.record deed).node = w.node := rfl

@[simp] theorem deeds_record (w : World σ) (deed : Deed) : (w.record deed).deeds = w.deeds ++ [deed] := rfl

@[simp] theorem disk_print (w : World σ) (lines : List String) : (w.print lines).disk = w.disk := rfl

@[simp] theorem deeds_print (w : World σ) (lines : List String) :
    (w.print lines).deeds = w.deeds ++ lines.map .printed := rfl

@[simp] theorem printed_start (disk : Disk) (node : Except Fault (Session σ)) : (start disk node).printed = [] := rfl

@[simp] theorem printed_record (w : World σ) (deed : Deed) :
    (w.record deed).printed = w.printed ++ deed.line?.toList := by
  simp only [printed, deeds_record, List.filterMap_append]
  cases deed <;> rfl

@[simp] theorem printed_print (w : World σ) (lines : List String) :
    (w.print lines).printed = w.printed ++ lines := by
  simp only [printed, deeds_print, List.filterMap_append, List.filterMap_map]
  congr 1
  exact List.filterMap_some

/-- The world after a dialogue with the node. -/
def converse (w : World σ) (session : Session σ) : World σ := { w.record .conversed with node := .ok session }

@[simp] theorem disk_converse (w : World σ) (session : Session σ) : (w.converse session).disk = w.disk := rfl

@[simp] theorem node_converse (w : World σ) (session : Session σ) : (w.converse session).node = .ok session := rfl

@[simp] theorem deeds_converse (w : World σ) (session : Session σ) :
    (w.converse session).deeds = w.deeds ++ [.conversed] := rfl

@[simp] theorem printed_converse (w : World σ) (session : Session σ) :
    (w.converse session).printed = w.printed :=
  (printed_record w .conversed).trans (List.append_nil _)

/-- The world after a file has been written anew, or as far as it could be. -/
def save (w : World σ) (name : String) (content : Bytes) : World σ :=
  { w.record (.wrote name content) with disk := (w.disk.write name content).2 }

@[simp] theorem deeds_save (w : World σ) (name : String) (content : Bytes) :
    (w.save name content).deeds = w.deeds ++ [.wrote name content] := rfl

theorem disk_save {w : World σ} {name : String} {content : Bytes} {result : Except Fault Unit} {disk : Disk}
    (h : w.disk.write name content = (result, disk)) : (w.save name content).disk = disk :=
  congrArg Prod.snd h

end World

namespace Script

variable {α β σ : Type} [Transport σ] {w w' : World σ}

theorem run_bind_of_ok {p : Script α} {a : α} (h : p.run w = (.ok a, w')) (f : α → Script β) :
    (p >>= f).run w = (f a).run w' := by
  refine (run_bind p f w).trans ?_
  rw [h]

theorem run_bind_of_error {p : Script α} {e : Failure} (h : p.run w = (.error e, w')) (f : α → Script β) :
    (p >>= f).run w = (.error e, w') := by
  refine (run_bind p f w).trans ?_
  rw [h]

theorem run_sayAll (lines : List String) (w : World σ) : (sayAll lines).run w = (.ok (), w.print lines) := by
  induction lines generalizing w with
  | nil => simp [sayAll, run, World.print]
  | cons line lines ih =>
    refine (ih (w.record (.printed line))).trans ?_
    simp [World.print, World.record, List.append_assoc]

theorem run_say (line : String) (w : World σ) : (say line).run w = (.ok (), w.record (.printed line)) := rfl

theorem run_content (name : String) (w : World σ) :
    (content name).run w = (.ok (w.disk.read name), w.record (.read name)) := rfl

theorem run_ofOutcomeUnder (message : String) (r : Outcome α) (w : World σ) :
    (ofOutcomeUnder message r).run w = (r.mapError fun e => (Failure.ofError e).under message, w) := rfl

theorem run_fail (f : Failure) (w : World σ) : (fail f : Script α).run w = (.error f, w) := rfl

theorem run_ofOption_some (message : String) (a : α) (w : World σ) :
    (ofOption message (some a)).run w = (.ok a, w) := rfl

theorem run_ofOption_none (message : String) (w : World σ) :
    (ofOption message (none : Option α)).run w = (.error (.ofMessage message), w) := rfl

theorem run_save (name : String) (content : Bytes) (w : World σ) :
    (save name content).run w =
      ((w.disk.write name content).1.mapError fun fault => .ofError (.io fault), w.save name content) := by
  simp only [save, run, World.save]
  cases (w.disk.write name content).1 <;> rfl

theorem run_reachNode (w : World σ) :
    reachNode.run w =
      (w.node.map (fun _ => ()) |>.mapError fun fault => .ofError (.connectivity fault), w.record .connected) := by
  simp only [reachNode, run]
  cases w.node <;> rfl

theorem run_hold {s s' : Session σ} {outcome : Outcome α} (hnode : w.node = .ok s) {d : Dialogue α}
    (h : d.run s = (outcome, s')) : (hold d).run w = (outcome.mapError .ofError, w.converse s') := by
  simp only [hold, run, World.node_record, hnode, h]
  cases outcome <;> rfl

end Script

end LightClient
