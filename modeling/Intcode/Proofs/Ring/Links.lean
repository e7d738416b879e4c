import Intcode.Proofs.Ring.Processes

namespace Intcode.Amplifier.Ring

/-!
# The channels of a ring

What the channels of a ring hold, and which of their ends are there, follows from what its processes
have sent and taken and from how far their workers are.

* `Link`     — a channel between two processes
* `Linked`   — the channels of a ring go with its processes
* `Linked.take`, `Linked.send`, `Linked.closeSender`, `Linked.closeReceiver` — what a turn does
-/

/-- A channel between two processes: whether its sender and its receiver are there, and what has
    been put in and taken out in all. -/
structure Link (c : Channel) (attached received : Bool) (supply taken : List Int) : Prop where
  ends : c.ends = (#[attached], attached.toNat, received)
  content : received = true → supply = taken ++ c.content

namespace Link

variable {c : Channel} {attached received : Bool} {supply taken : List Int} {v : Int}

theorem take {buffer : Fifo Int} (hlink : Link c attached true supply taken)
    (hcontent : c.content = v :: buffer.toList) :
    Link { c with buffer } attached true supply (taken ++ [v]) := by
  refine ⟨hlink.ends, fun _ => ?_⟩
  rw [hlink.content rfl, hcontent]
  exact List.append_cons taken v buffer.toList

theorem push (hlink : Link c attached received supply taken) (v : Int) :
    Link { c with buffer := c.buffer.push v } attached received (supply ++ [v]) taken := by
  refine ⟨hlink.ends, fun hreceived => ?_⟩
  show supply ++ [v] = taken ++ (c.buffer.push v).toList
  rw [Fifo.toList_push, hlink.content hreceived, List.append_assoc]
  rfl

theorem closeSender (hlink : Link c true received supply taken) :
    Link (c.closeSender 0) false received supply taken := by
  refine ⟨Channel.ends_hangUp hlink.ends, ?_⟩
  rw [Channel.content_closeSender]
  exact hlink.content

theorem closeReceiver (hlink : Link c attached received supply taken) :
    Link c.closeReceiver attached false supply taken :=
  ⟨Channel.ends_closeReceiver hlink.ends, nofun⟩

end Link

variable {size i : Nat} {preload : Nat → List Int} {s : Nat → Process} {p : Process} {h : Hub}

/-- The channels of a ring go with its processes.  The first channel is always received from. -/
structure Linked (size : Nat) (preload : Nat → List Int) (h : Hub) (s : Nat → Process) : Prop where
  channels : h.channels.size = size
  link : ∀ j < size, Link (h.channel j) (s (before size j)).phase.holdsOutput
    ((s j).phase.holdsInput || j == 0) (supply size preload s j) (s j).taken

namespace Linked

/-- The supply of a process is that of another state in which as much has been sent. -/
theorem supply_update (hsent : p.sent = (s i).sent) (j : Nat) :
    supply size preload (Function.update s i p) j = supply size preload s j :=
  congrArg (preload j ++ ·) (field_update Process.sent hsent _)

/-- A change of the engine changes no supply. -/
theorem supply_become (s : Nat → Process) (i : Nat) (e : Engine) (j : Nat) :
    supply size preload (Function.update s i ((s i).become e)) j = supply size preload s j :=
  supply_update (p := (s i).become e) rfl j

/-- A step that has nothing to do with the channels. -/
theorem quiet (hlinked : Linked size preload h s) (htaken : p.taken = (s i).taken)
    (hsent : p.sent = (s i).sent) (hout : p.phase.holdsOutput = (s i).phase.holdsOutput)
    (hin : (p.phase.holdsInput || i == 0) = ((s i).phase.holdsInput || i == 0)) :
    Linked size preload h (Function.update s i p) := by
  refine ⟨hlinked.channels, fun j hj => ?_⟩
  have hlink := hlinked.link j hj
  rw [supply_update hsent, field_update Process.taken htaken,
    field_update (fun p => p.phase.holdsOutput) hout]
  by_cases hji : j = i
  · subst hji
    rw [Function.update_self, hin]
    exact hlink
  · rw [Function.update_of_ne hji]
    exact hlink

/-- An engine takes a step of its own. -/
theorem become (hlinked : Linked size preload h s) (hphase : (s i).phase = .running) (e : Engine) :
    Linked size preload h (Function.update s i ((s i).become e)) :=
  hlinked.quiet rfl rfl (Process.holdsOutput_become hphase e)
    (congrArg (· || i == 0) (Process.holdsInput_become hphase e))

/-- A process takes a value. -/
theorem take (hlinked : Linked size preload h s) (hi : i < size) {v : Int} {buffer : Fifo Int}
    (hcontent : h.content i = v :: buffer.toList) (hreceived : (s i).phase.holdsInput = true)
    (htaken : p.taken = (s i).taken ++ [v]) (hsent : p.sent = (s i).sent)
    (hout : p.phase.holdsOutput = (s i).phase.holdsOutput)
    (hin : p.phase.holdsInput = (s i).phase.holdsInput) :
    Linked size preload (h.refill i buffer) (Function.update s i p) := by
  have hlt : i < h.channels.size := by rw [hlinked.channels]; exact hi
  refine ⟨(Hub.size_refill h i buffer).trans hlinked.channels, fun j hj => ?_⟩
  have hlink := hlinked.link j hj
  rw [supply_update hsent, field_update (fun p => p.phase.holdsOutput) hout,
    field_update (fun p => p.phase.holdsInput) hin]
  unfold Hub.refill
  rw [Hub.channel_put hlt]
  by_cases hji : j = i
  · subst hji
    rw [if_pos rfl, Function.update_self, htaken]
    rw [hreceived, Bool.true_or] at hlink ⊢
    exact hlink.take hcontent
  · rw [if_neg hji, Function.update_of_ne hji]
    exact hlink

/-- A process sends a value. -/
theorem send (hlinked : Linked size preload h s) (hi : i < size) {v : Int}
    (htaken : p.taken = (s i).taken) (hsent : p.sent = (s i).sent ++ [v])
    (hout : p.phase.holdsOutput = (s i).phase.holdsOutput)
    (hin : p.phase.holdsInput = (s i).phase.holdsInput) :
    Linked size preload
      (h.refill ((i + 1) % size) ((h.channel ((i + 1) % size)).buffer.push v))
      (Function.update s i p) := by
  have hlt : (i + 1) % size < h.channels.size := by
    rw [hlinked.channels]
    exact Nat.mod_lt _ (by omega)
  refine ⟨(Hub.size_refill h _ _).trans hlinked.channels, fun j hj => ?_⟩
  have hlink := hlinked.link j hj
  rw [field_update Process.taken htaken, field_update (fun p => p.phase.holdsOutput) hout,
    field_update (fun p => p.phase.holdsInput) hin]
  unfold Hub.refill
  rw [Hub.channel_put hlt]
  -- only the process after it is supplied with more
  by_cases hji : before size j = i
  · obtain rfl := (eq_before_iff hi hj).1 hji
    unfold supply at hlink ⊢
    rw [if_pos rfl, hji, Function.update_self, hsent, ← List.append_assoc]
    rw [hji] at hlink
    exact hlink.push v
  · unfold supply at hlink ⊢
    rw [if_neg (fun heq => hji ((eq_before_iff hi hj).2 heq)), Function.update_of_ne hji]
    exact hlink

/-- A process lets go of its output. -/
theorem closeSender (hlinked : Linked size preload h s) (hi : i < size)
    (hattached : (s i).phase.holdsOutput = true)
    (htaken : p.taken = (s i).taken) (hsent : p.sent = (s i).sent)
    (hout : p.phase.holdsOutput = false)
    (hin : p.phase.holdsInput = (s i).phase.holdsInput) :
    Linked size preload (h.closeSender ⟨(i + 1) % size, 0⟩) (Function.update s i p) := by
  have hlt : (i + 1) % size < h.channels.size := by
    rw [hlinked.channels]
    exact Nat.mod_lt _ (by omega)
  refine ⟨(Hub.size_put h _ _).trans hlinked.channels, fun j hj => ?_⟩
  have hlink := hlinked.link j hj
  rw [supply_update hsent, field_update Process.taken htaken,
    field_update (fun p => p.phase.holdsInput) hin]
  unfold Hub.closeSender
  rw [Hub.channel_put hlt]
  by_cases hji : before size j = i
  · obtain rfl := (eq_before_iff hi hj).1 hji
    rw [if_pos rfl, hji, Function.update_self, hout]
    rw [hji, hattached] at hlink
    exact hlink.closeSender
  · rw [if_neg (fun heq => hji ((eq_before_iff hi hj).2 heq)), Function.update_of_ne hji]
    exact hlink

/-- A process other than the first lets go of its input. -/
theorem closeReceiver (hlinked : Linked size preload h s) (hi : i < size) (hne : i ≠ 0)
    (htaken : p.taken = (s i).taken) (hsent : p.sent = (s i).sent)
    (hout : p.phase.holdsOutput = (s i).phase.holdsOutput)
    (hin : p.phase.holdsInput = false) :
    Linked size preload (h.closeReceiver ⟨i⟩) (Function.update s i p) := by
  have hlt : i < h.channels.size := by rw [hlinked.channels]; exact hi
  refine ⟨(Hub.size_put h _ _).trans hlinked.channels, fun j hj => ?_⟩
  have hlink := hlinked.link j hj
  rw [supply_update hsent, field_update Process.taken htaken,
    field_update (fun p => p.phase.holdsOutput) hout]
  unfold Hub.closeReceiver
  rw [Hub.channel_put hlt]
  by_cases hji : j = i
  · subst hji
    rw [if_pos rfl, Function.update_self, hin, Bool.false_or, beq_false_of_ne hne]
    exact hlink.closeReceiver
  · rw [if_neg hji, Function.update_of_ne hji]
    exact hlink

end Linked

end Intcode.Amplifier.Ring
