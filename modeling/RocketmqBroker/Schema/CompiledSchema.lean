import RocketmqBroker.Storage.WalEntry

/-!
Queue schemas (schema/mod.rs). The protobuf compiler and the descriptor pool are
third-party code and stand as parameters: a compiler from source text to an
encoded descriptor set, and the message names such a set decodes to.
-/
namespace RocketmqBroker

structure ProtoTools where
  compile : String → Option Bytes
  messageNames : Bytes → Option (List String)

structure CompiledSchema where
  id : UInt64
  raw : Bytes
  descriptorSetBytes : Bytes
  messageName : String
  deriving DecidableEq, Repr

inductive SchemaCompileError where
  | invalidProto
  | compilationFailed
  | messageNotFound (requested : String) (available : List String)
  deriving DecidableEq, Repr

def reconstructSchema (tools : ProtoTools) (schemaId : UInt64) (rawProto : Bytes)
    (descriptorSetBytes : Bytes) (messageName : String) :
    Except SchemaCompileError CompiledSchema :=
  match tools.messageNames descriptorSetBytes with
  | none => .error .invalidProto
  | some available =>
    if messageName ∈ available then .ok ⟨schemaId, rawProto, descriptorSetBytes, messageName⟩
    else .error (.messageNotFound messageName available)

def compileProto (tools : ProtoTools) (nextSchemaId : UInt64) (rawProto : Bytes)
    (messageName : String) : UInt64 × Except SchemaCompileError CompiledSchema :=
  match fromUtf8 rawProto with
  | none => (nextSchemaId, .error .invalidProto)
  | some text =>
    (nextSchemaId + 1,
      match tools.compile text with
      | none => .error .compilationFailed
      | some descriptorSetBytes =>
        reconstructSchema tools nextSchemaId rawProto descriptorSetBytes messageName)

end RocketmqBroker
