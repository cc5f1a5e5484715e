import JavaClass.Constant.Format
import JavaClass.ConstantPool

/-!
# Constant pools in a class file

A pool is written as the number of its slots plus one, and its constants in order. A reader takes
constants until the declared slots are filled.
-/

namespace JavaClass.ConstantPool

/-- Reads a constant into a pool whose declared count is `count`. -/
def readNext (count : UInt16) (pool : ConstantPool) : Reader ConstantPool := do
  let constant ← Constant.read
  if pool.next + width constant > count.toNat then
    -- A constant of two slots where one slot is left.
    Reader.fail (.poolMiscounted count)
  else
    match pool.push constant with
    | (.ok _, pool) => return pool
    | (.error cause, _) => Reader.fail cause

/-- Reads a pool. Every constant fills a slot, so there are fewer of them than the count says. -/
def read : Reader ConstantPool := do
  let count ← Reader.u2
  if count = 0 then Reader.fail (.poolMiscounted count)
  else
    Reader.iterate count.toNat (fun pool _ => pool.next < count.toNat) (readNext count) empty

/-- The bytes of a pool. -/
def write (pool : ConstantPool) : Except Error Bytes := do
  let count ← count16 "constant pool slots" pool.next
  return Bytes.ofU2 count ++ (← writeAll Constant.write pool.constants.elements)

end JavaClass.ConstantPool
