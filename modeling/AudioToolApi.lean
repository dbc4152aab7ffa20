import AudioToolApi.Lib.Runs
import AudioToolApi.Utilities.Connection
import AudioToolApi.Utilities.ConnectionFacts
import AudioToolApi.Lib.Binary64
import AudioToolApi.Audio.OutputBuffer
import AudioToolApi.Audio.OutputBufferFacts
import AudioToolApi.Lib.Backlog
import AudioToolApi.Audio.Decode
import AudioToolApi.Audio.DecodeFacts
import AudioToolApi.Lib.Delimiter
import AudioToolApi.Utilities.Text
import AudioToolApi.Http.Multipart
import AudioToolApi.Http.MultipartFacts
import AudioToolApi.Http.Request
import AudioToolApi.Http.RequestFacts
import AudioToolApi.Http.Worker
import AudioToolApi.Http.WorkerFacts
import AudioToolApi.Http.WorkThread
import AudioToolApi.Http.WorkThreadFacts
import AudioToolApi.Utilities.Utf8
import AudioToolApi.Utilities.Json
import AudioToolApi.Utilities.JsonFacts
import AudioToolApi.Utilities.Base64
import AudioToolApi.Utilities.Database
import AudioToolApi.Utilities.Environment
import AudioToolApi.Models.Session
import AudioToolApi.Models.User
import AudioToolApi.Models.SessionFacts
import AudioToolApi.Models.File
import AudioToolApi.Models.Project
import AudioToolApi.Handlers.Base
import AudioToolApi.Handlers.Files
import AudioToolApi.Handlers.Project
import AudioToolApi.Utilities.Requests
import AudioToolApi.Handlers.Auth
import AudioToolApi.Http.Process
import AudioToolApi.Lib.Effects
import AudioToolApi.Utilities.DatabaseFacts
import AudioToolApi.Handlers.Footprint
import AudioToolApi.Http.GateFacts
import AudioToolApi.Http.Isolation
import AudioToolApi.Http.ProcessFacts
import AudioToolApi.Http.SessionWindow
import AudioToolApi.Http.SessionWindowFacts
import AudioToolApi.Models.UserFacts
import AudioToolApi.Http.DeclaredBoundary
import AudioToolApi.Http.MultipartSlices
import AudioToolApi.Http.TargetFacts
import AudioToolApi.Lib.Rows
import AudioToolApi.Models.FileFacts
import AudioToolApi.Http.Dispatch
import AudioToolApi.Http.Lifecycle
import AudioToolApi.Http.Sockets
import AudioToolApi.Http.AuthFacts
import AudioToolApi.Http.IssuedSessions
import AudioToolApi.Models.ConcurrentCreate
import AudioToolApi.Audio.Encode
import AudioToolApi.Audio.EncodeFacts
import AudioToolApi.Audio.FailedGrowth
import AudioToolApi.Audio.InputBuffer
import AudioToolApi.Audio.Setup
import AudioToolApi.Audio.SetupFacts
import AudioToolApi.Http.ParamPosition
import AudioToolApi.Models.UserRows
import AudioToolApi.Http.OauthForward
import AudioToolApi.Http.UploadAnswer
import AudioToolApi.Http.ProjectReads
import AudioToolApi.Http.SignUp
import AudioToolApi.Http.LeastLoaded
import AudioToolApi.Http.LoginToken
import AudioToolApi.Http.Stealing
import AudioToolApi.Http.TokenForm
import AudioToolApi.Models.LookUps
import AudioToolApi.Audio.Processor
import AudioToolApi.Audio.ProcessorFacts
import AudioToolApi.Audio.ProcessorReturns
import AudioToolApi.Audio.Transcode
import AudioToolApi.Http.Durable
import AudioToolApi.Http.Outsiders
import AudioToolApi.Audio.ProcessorPackets
import AudioToolApi.Http.RejectedBody
import AudioToolApi.Lib.Bits
import AudioToolApi.Utilities.Base64Decode
import AudioToolApi.Utilities.JsonValid
import AudioToolApi.Http.AlwaysAnswered
import AudioToolApi.Http.PoisonedList
import AudioToolApi.Http.MultipartChunks
import AudioToolApi.Utilities.Config
import AudioToolApi.Utilities.ConfigFacts
import AudioToolApi.Utilities.JsonGrammar
import AudioToolApi.Utilities.JsonScanned
import AudioToolApi.Utilities.JsonDocument
