import FlexPimpl.Machines
import FlexPimpl.WriteOnce
import FlexPimpl.Reflection
import FlexPimpl.CodeGenerator
import FlexPimpl.Settings
import FlexPimpl.Tooling
import FlexPimpl.Steps
import FlexPimpl.History
import FlexPimpl.MethodCalls
import FlexPimpl.Entries
import FlexPimpl.Order
import FlexPimpl.Storage
import FlexPimpl.EventHandler
import FlexPimpl.Arguments
import FlexPimpl.Brackets
import FlexPimpl.Wrappers
import FlexPimpl.Declarations
import FlexPimpl.CppTokens
import FlexPimpl.Headers
import FlexPimpl.Members
import FlexPimpl.Overloads
import FlexPimpl.CppTypes
import FlexPimpl.TemplateDeduction
import FlexPimpl.TemplateCalls
import FlexPimpl.TemplateSelection
import FlexPimpl.Templates
import FlexPimpl.Parameters
import FlexPimpl.Isolation
import FlexPimpl.Sources
import FlexPimpl.Lifetime
import FlexPimpl.Construction
import FlexPimpl.Faults
import FlexPimpl.Plugin
import FlexPimpl.Definitions
import FlexPimpl.Objects
import FlexPimpl.Overloading
import FlexPimpl.Forwarding
import FlexPimpl.ConstOverloads
import FlexPimpl.StorageText
import FlexPimpl.Heap
