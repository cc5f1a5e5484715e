import JavaClass.Main
import JavaClass.Proofs.ConstantPool.Runs
import JavaClass.Proofs.TypeRegistry.Bytes
import JavaClass.Proofs.Text.ModifiedUtf8.Refusals
import JavaClass.Proofs.Instruction.Decoding
import JavaClass.Proofs.Attribute.Bounded
import JavaClass.Proofs.Attribute.Writable
import JavaClass.Proofs.ClassFile.Guarantees
import JavaClass.Proofs.ClassFile.Writable
import JavaClass.Proofs.Draft.References
import JavaClass.Proofs.Draft.Layout
import JavaClass.Proofs.Draft.RoundTrip
import JavaClass.Proofs.Attribute.Length
import JavaClass.Proofs.Attribute.Announced
import JavaClass.Proofs.Attribute.Capacity
import JavaClass.Proofs.ClassFile.Announced
import JavaClass.Proofs.ClassFile.Capacity
import JavaClass.Proofs.ConstantPool.Counted
import JavaClass.Proofs.Text.ModifiedUtf8.Texts
import JavaClass.Proofs.Constant.Identity
import JavaClass.Proofs.Draft.StackRoom
import JavaClass.Proofs.ConstantPool.Describe
import JavaClass.Proofs.OffsetArray.Lookup
import JavaClass.Proofs.TypeRegistry.Stacks
import JavaClass.Proofs.Attribute.Nesting
