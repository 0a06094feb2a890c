import LiteChat.Client.Schedule
import LiteChat.Lite.Encode
import LiteChat.Main
import LiteChat.Message.Same
import LiteChat.Message.View
import LiteChat.Proofs.Client.Identity
import LiteChat.Proofs.Client.Listening
import LiteChat.Proofs.Client.Overlap
import LiteChat.Proofs.Client.Renewal
import LiteChat.Proofs.Client.Reopened
import LiteChat.Proofs.Lite.Compatibility
import LiteChat.Proofs.Lite.Contents
import LiteChat.Proofs.Lite.Filling
import LiteChat.Proofs.Lite.Refusals
import LiteChat.Proofs.Lite.Resolution
import LiteChat.Proofs.Lite.Retention
import LiteChat.Proofs.Lite.Truncation
import LiteChat.Proofs.Lite.WideIntegers
import LiteChat.Proofs.Message.Construction
import LiteChat.Proofs.Schema.Grammar
import LiteChat.Proofs.Schema.Joining
import LiteChat.Proofs.Schema.NormalForm
import LiteChat.Proofs.Schema.Order
import LiteChat.Proofs.Schema.Preamble
import LiteChat.Proofs.Schema.Regions
import LiteChat.Proofs.Schema.VariantNames
import LiteChat.Proofs.Service.Batches
import LiteChat.Proofs.Service.ChatContent
import LiteChat.Proofs.Service.Replies
import LiteChat.Proofs.Transport.Delivery
import LiteChat.Schema.DescriptorText
import LiteChat.Tool.Command
