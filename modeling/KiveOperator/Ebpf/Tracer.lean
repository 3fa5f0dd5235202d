import KiveOperator.Ebpf.TracedInodes
import Mathlib.Data.Finset.Insert

/-!
# The kernel probe

`ebpf/tracer.bpf.c`: the program that is attached to `inode_permission` and sends a record to the
ring buffer whenever a traced file is accessed.
-/

namespace Kive

/-- What the probe reads of a `struct inode`: its number and the device of its superblock. -/
structure Inode where
  ino : UInt64
  dev : UInt32
  deriving DecidableEq

/-- What the helper functions say about the task that makes the access. -/
structure Task where
  pidTgid : UInt64
  uidGid : UInt64
  comm : List UInt8
  deriving DecidableEq

/-- `struct log_data`. -/
structure LogData where
  pid : Int32
  tgid : UInt32
  uid : UInt32
  gid : UInt32
  dev : UInt32
  ino : UInt64
  mask : Int32
  comm : List UInt8
  deriving DecidableEq

/-- The parameters of the probed function, in registers. -/
structure PtRegs where
  parm1 : UInt64
  parm2 : UInt64
  parm3 : UInt64
  deriving DecidableEq

/-- The record of an access. -/
def kprobeOutput (task : Task) (inode : UInt64) (dev : UInt32) (mask : Int32) : LogData where
  pid := task.pidTgid.toUInt32.toInt32
  tgid := (task.pidTgid >>> (32 : UInt64)).toUInt32
  uid := task.uidGid.toUInt32
  gid := (task.uidGid >>> (32 : UInt64)).toUInt32
  dev := dev
  ino := inode
  mask := mask
  comm := task.comm

/-- The body of both probes, given the parameters that hold the inode and the mask: the record
that is sent, if any. -/
def inodePermission (tracedInodes : TracedInodes) (memory : UInt64 → Inode) (task : Task)
    (inode mask : UInt64) : Option LogData :=
  if inode = 0 then none
  else if (⟨(memory inode).ino, (memory inode).dev⟩ : BpfMapKey) ∈ tracedInodes then
    some (kprobeOutput task (memory inode).ino (memory inode).dev mask.toUInt32.toInt32)
  else none

/-- The probe for kernels before 5.12. -/
def kprobeInodePermissionOld (tracedInodes : TracedInodes) (memory : UInt64 → Inode)
    (task : Task) (ctx : PtRegs) : Option LogData :=
  inodePermission tracedInodes memory task ctx.parm1 ctx.parm2

/-- The probe for later kernels, where `inode_permission` has one more parameter. -/
def kprobeInodePermissionNew (tracedInodes : TracedInodes) (memory : UInt64 → Inode)
    (task : Task) (ctx : PtRegs) : Option LogData :=
  inodePermission tracedInodes memory task ctx.parm2 ctx.parm3

/-- The record says that an access to the inode `i` was made on a kernel that traces the keys
`tracedInodes`. -/
def Emits (tracedInodes : TracedInodes) (i : Inode) (data : LogData) : Prop :=
  ∃ memory task ctx,
    (kprobeInodePermissionOld tracedInodes memory task ctx = some data ∧ memory ctx.parm1 = i) ∨
    (kprobeInodePermissionNew tracedInodes memory task ctx = some data ∧ memory ctx.parm2 = i)

/-- A record that is sent names the accessed inode, whose key is in the map. -/
lemma of_inodePermission_eq_some {tracedInodes : TracedInodes} {memory : UInt64 → Inode}
    {task : Task} {inode mask : UInt64} {data : LogData}
    (h : inodePermission tracedInodes memory task inode mask = some data) :
    data.ino = (memory inode).ino ∧ data.dev = (memory inode).dev ∧
      (⟨data.ino, data.dev⟩ : BpfMapKey) ∈ tracedInodes := by
  unfold inodePermission at h
  split_ifs at h with hnull hkey
  obtain rfl := Option.some.inj h
  exact ⟨rfl, rfl, hkey⟩

/-- The probes report exactly the accesses to traced files, and report them truly. -/
lemma Emits.spec {tracedInodes : TracedInodes} {i : Inode} {data : LogData}
    (h : Emits tracedInodes i data) :
    data.ino = i.ino ∧ data.dev = i.dev ∧ (⟨i.ino, i.dev⟩ : BpfMapKey) ∈ tracedInodes := by
  obtain ⟨memory, task, ctx, ⟨hprobe, rfl⟩ | ⟨hprobe, rfl⟩⟩ := h
  all_goals
    obtain ⟨hino, hdev, hkey⟩ := of_inodePermission_eq_some hprobe
    exact ⟨hino, hdev, hino ▸ hdev ▸ hkey⟩

end Kive
