import DaisyChain.Proofs.Chain.Garbled
import DaisyChain.Proofs.Chain.Lagging

/-!
# Chains that resume after a garbled broadcast

If the header of a broadcast is garbled on one link, the nodes before that link take the value all
the same, and the nodes behind it recover (`Chain.Idle.resumes_garbled`).  The gateway finds that the
header has come back with odd parity, and pauses.  Then all nodes listen, but those behind the link
have a record of the header.
-/

namespace DaisyChain

open Node

variable {M : Type}

/-- Nodes that have accepted the header of a broadcast receive the frame and hand it on. -/
theorem flow_opened (table : Table M) {property : PropertyId} (travels : property.Travels)
    (staged : Bool) {nodes : List (Engine × M)} (few : nodes.length < countModulus)
    {bytes : List UInt8} {frame : Frame} (whole : Frame.Whole bytes frame)
    (useful : frame ≠ .empty) :
  flow table (opened ⟨.broadcast, staged, property⟩ nodes) bytes =
    (nodes.map (reached table ⟨.broadcast, staged, property⟩ frame.value?), bytes)
  := by
  have few' : 0 + nodes.length < countModulus := by omega
  have all := flow_broadcast table travels staged nodes 0 whole useful few'
  rw [flow_append, flow_opening table travels staged nodes 0 few', Prod.mk.injEq] at all
  exact Prod.ext all.1 (List.append_cancel_left all.2)

namespace Chain

variable {c : Chain M} {k : Nat} {ds : List Disturbance}

/-- An idle chain with a disturbed link is current. -/
theorem Idle.current_disturb (idle : c.Idle) (k : Nat) (ds : List Disturbance) :
  (c.disturb k ds).Current
  := by
  apply Current.modifyLink
  intro e member
  obtain ⟨node, among, rfl⟩ := List.mem_map.mp member
  apply Or.inl (idle.listening node among)

/-- The engines of a chain at rest are in the phases that it yields. -/
theorem Yields.phase_of_atRest {table : Table M} {bodies : List (Body M)} {out : List UInt8}
    (yields : c.Yields table bodies out) (rest : c.AtRest) :
  c.engines.map Engine.phase = bodies.map fun b => b.engine.phase
  := by
  have outlook := yields.outlook_eq
  rw [rest.outlook_eq, Prod.mk.injEq] at outlook
  rw [← outlook.1, engines, List.map_map, List.map_map]
  rfl

variable {property : PropertyId} (travels : property.Travels) (staged : Bool)

include travels

/-- If the header of a broadcast is garbled on a link of an idle chain, it comes back with odd
parity, and the nodes behind that link have just begun to recover. -/
theorem Idle.lags_garbled (idle : c.Idle) (within : k ≤ c.pairs.length)
    (few : c.pairs.length < countModulus)
    (garbles : ∀ count, Disturbance.Garbles ds
      (ActionHeader.pack ⟨.broadcast, staged, property, count⟩)) :
  let c' := (c.disturb k ds).inject 0
    (ActionHeader.pack ⟨.broadcast, staged, property, 0⟩).toList
  c'.Current ∧ c'.Lags k c'.now ∧ ∃ h' : RawHeader, h'.evenParity = false ∧
    c'.Yields c.table
      (opened ⟨.broadcast, staged, property⟩ (c.pairs.take k) ++ garbled (c.pairs.drop k)) h'.toList
  := by
  intro c'
  have length : (c.pairs.take k).length = k := by rw [List.length_take, Nat.min_eq_left within]
  obtain ⟨rest, h', odd, heard⟩ := idle.yields_garbled within few travels staged garbles
  have current : c'.Current := ((idle.current_disturb k ds).modifyLink 0 _).settle
  refine ⟨current, current.lags fun e member => ?_, h', odd, heard⟩
  have among := List.mem_map_of_mem (f := Engine.phase) member
  rw [List.map_drop, heard.phase_of_atRest rest, ← List.map_drop,
    List.drop_left' (by rw [opened, List.length_map, length])] at among
  obtain ⟨b, behind, same⟩ := List.mem_map.mp among
  obtain ⟨n, -, rfl⟩ := List.mem_map.mp behind
  apply same.symm

/-- If the nodes behind a link have just begun to recover when the frame of a broadcast is sent, the
nodes before that link receive it.  After a pause for the time that a recovery takes all nodes
listen, and no more than the frame waits for the gateway. -/
theorem Yields.resumes (current : c.Current) (lags : c.Lags k c.now) {table : Table M}
    {front back : List (Engine × M)} (length : front.length = k) (few : k < countModulus)
    {h : RawHeader}
    (yields : c.Yields table (opened ⟨.broadcast, staged, property⟩ front ++ garbled back) h.toList)
    {bytes : List UInt8} {frame : Frame} (whole : Frame.Whole bytes frame) (useful : frame ≠ .empty)
    {given : Engine × M → Engine × M}
    (receives : ∀ n ∈ front, reached table ⟨.broadcast, staged, property⟩ frame.value? n =
      Body.listener (given n).1 (given n).2) :
  ∃ c' : Chain M,
    (∀ timeout, (c.inject 0 bytes).await Header.actionLength timeout = (h.toList, c')) ∧
    ∀ ms, recoveryDelay ≤ ms → ∃ out, out.length ≤ frameMax ∧
      (c'.advance ms).Yields table (listeners (front.map given ++ blamed back)) out
  := by
  obtain ⟨out, zeros, short⟩ := flow_garbled table back bytes
  have comes : flow table (opened ⟨.broadcast, staged, property⟩ front ++ garbled back) bytes =
      (listeners (front.map given) ++ garbled back, out) := by
    rw [flow_append_nodes, flow_opened table travels staged (by rw [length]; exact few) whole useful]
    simp only [zeros, listeners, List.map_map]
    rw [List.map_congr_left receives]
    rfl
  have framed := yields.inject bytes
  rw [comes] at framed
  have enough : Header.actionLength ≤ (h.toList ++ out).length := by
    rw [List.length_append]
    apply Nat.le_add_right 3
  have fits : Header.actionLength ≤ frameMax := by decide
  have fits' : out.length ≤ frameMax := by
    rw [short]
    apply whole.fits
  obtain ⟨header, after⟩ := framed.take_settle enough fits
  let sent := (c.modifyLink 0 fun l => l.pushAll bytes).settle
  have current' : (sent.settle.take Header.actionLength).2.Current :=
    (current.modifyLink 0 _).settle.settle.modifyLink _ _
  have lags' : (sent.settle.take Header.actionLength).2.Lags k
      (sent.settle.take Header.actionLength).2.now :=
    (lags.modifyLink 0 _).settle.settle.modifyLink _ _
  refine ⟨_, fun timeout => (framed.await_eq enough fits timeout).trans (Prod.ext header rfl),
    fun ms long => ⟨out, fits', ?_⟩⟩
  have listening : ∀ b ∈ (listeners (front.map given) ++ garbled back).take k,
      b.engine.phase = .listening .nothing := by
    rw [List.take_left' (by simp [listeners, length])]
    intro b member
    obtain ⟨n, -, rfl⟩ := List.mem_map.mp member
    rfl
  have resumed := after.advance fits' current' lags' listening long
  have front' : listeners (front.map given) =
      listeners ((listeners (front.map given)).map fun b => (b.engine, b.module)) := by
    simp only [listeners, List.map_map]
    rfl
  have back' : listeners (blamed back) =
      listeners ((garbled back).map fun b => (b.engine, b.module)) := by
    simp only [listeners, garbled, List.map_map]
    rfl
  rw [List.map_append, listeners, List.map_append, ← listeners, ← listeners, ← front', ← back']
    at resumed
  rw [listeners, List.map_append]
  apply resumed

/-- If the header of a broadcast is garbled on a link of an idle chain, it comes back with odd
parity.  After a pause for the time that a recovery takes all nodes listen: those before that link
have received the value, those behind it have a record of the header. -/
theorem Idle.resumes_garbled (idle : c.Idle) (within : k ≤ c.pairs.length)
    (few : c.pairs.length < countModulus)
    (garbles : ∀ count, Disturbance.Garbles ds
      (ActionHeader.pack ⟨.broadcast, staged, property, count⟩))
    {bytes : List UInt8} {frame : Frame} (whole : Frame.Whole bytes frame) (useful : frame ≠ .empty)
    {given : Engine × M → Engine × M}
    (receives : ∀ n ∈ c.pairs, reached c.table ⟨.broadcast, staged, property⟩ frame.value? n =
      Body.listener (given n).1 (given n).2) :
  let sent := ((c.disturb k ds).inject 0
    (ActionHeader.pack ⟨.broadcast, staged, property, 0⟩).toList).inject 0 bytes
  ∃ (h' : RawHeader) (c' : Chain M), h'.evenParity = false ∧
    (∀ timeout, sent.await Header.actionLength timeout = (h'.toList, c')) ∧
    ∀ ms, recoveryDelay ≤ ms → ∃ out, out.length ≤ frameMax ∧
      (c'.advance ms).Yields c.table
        (listeners ((c.pairs.take k).map given ++ blamed (c.pairs.drop k))) out
  := by
  obtain ⟨current, lags, h', odd, heard⟩ := idle.lags_garbled travels staged within few garbles
  have length : (c.pairs.take k).length = k := by rw [List.length_take, Nat.min_eq_left within]
  obtain ⟨c', comes, resumes⟩ := heard.resumes travels staged current lags length (by omega) whole
    useful fun n member => receives n (List.mem_of_mem_take member)
  exact ⟨h', c', odd, comes, resumes⟩

end Chain

end DaisyChain
