import TKey.MeasuredStart

namespace TKey

open ByteMemory

/-!
# Chained start

An app that resets the system leaves a record of what is to be started next.
The record is obeyed by the boot that follows, is consumed when an app is
started, and its data can be read by that app for as long as it runs.
-/

section Booting

variable {device : Device} {requested : Reset}

end Booting

section Handover

/-- The app has the data of the previous app for as long as it runs. -/
theorem Launched.getAppData
    {device : Device}
    {launch : Launch}
    (launched : Launched device launch)
    {later : List Event}
    {m : Machine}
    (stillRunning :
      System.run device (.running launch launch.machine) later =
        .running launch m)
    {call : Call}
    (isCall : SyscallNum.ofWord call.number = some .getAppData)
    (inRam : inAppRam call.arg1 184 = true) :
    (syscallHandler device call).run m =
      .ok 0
        { m with
          ram :=
            write m.ram call.arg1.toNat
              launch.machine.resetinfo.nextAppData.toList } := by
  have sound :=
    @System.run_induction device (System.Sound device) sound_step _
      (.running launched (.refl _)) later
  rw [stillRunning] at sound
  cases sound with
  | running _ runsOn =>
      rw [syscallHandler, isCall]
      simp only
      rw [resetData_run, if_pos inRam, runsOn.resetinfo]

end Handover

end TKey
