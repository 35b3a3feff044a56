import Divine.Keycast.HandlerCache
import Divine.Keycast.SignerRun
import Divine.Cluster.Coordinator
import Divine.Keycast.RegisteredHash
import Divine.Keycast.ClaimedAccount
import Divine.NostrSdk.ConnectOutcome
import Divine.NostrSdk.RequestOutcome
import Divine.NostrSdk.OneSocket
import Divine.NostrSdk.PendingQueue
import Divine.Repositories.SyncedTargets
import Divine.Repositories.LikesConvergence
import Divine.Repositories.FollowRollback
import Divine.NostrSdk.PoolEose
import Divine.NostrSdk.PoolAuth
import Divine.NostrSdk.PoolQuery
import Divine.DbClient.Deletions
import Divine.DbClient.UpsertOrder
import Divine.DbClient.UpsertRace
import Divine.PooledVideoPlayer.FeedAudio
import Divine.NostrClient.RelayAgreement
import Divine.NostrClient.Subscriptions
import Divine.Repositories.ActionExecution
import Divine.ComputeJs.InjectedMarkup
import Divine.EventCache.Faithful
import Divine.FollowListCache.Cache
import Divine.Funnelcake.ShownOnce
import Divine.VideoFeedBloc.OwnMode
import Divine.SubscriptionManager.CachedData
import Divine.VideoFeedBloc.EndOfFeed
import Divine.EmailVerification.OwnRegistration
import Divine.CommentsBloc.Agreement
import Divine.ProfileLikedVideos.Coverage
import Divine.VideoInteractions.Agreement
import Divine.Keycast.CompleteDeletion
import Divine.Keycast.TeamDeletion
import Divine.Keycast.FailedGrants
import Divine.Keycast.PolicyComparison
import Divine.Keycast.RefreshExpiry
import Divine.Keycast.Nip98
import Divine.Keycast.OriginPermission
import Divine.Keycast.Polling
import Divine.Keycast.SignedEvent
import Divine.Keycast.SlicedInput
import Divine.NostrClient.FailedPublish
import Divine.NostrSdk.EventMemBox
import Divine.NostrSdk.Nip44
import Divine.NostrSdk.TlvDecoding
import Divine.FrontendWeb.FunnelcakeHealth
import Divine.FrontendWeb.JwtSigner
import Divine.FrontendWeb.OneSource
import Divine.FrontendWeb.VttParser
import Divine.ComputeJs.NpubEncoding
import Divine.Repositories.LikeCounts
import Divine.CommentsRepository.LiveComments
import Divine.VideosRepository.AddressableLookup
import Divine.VideosRepository.CuratedLists
import Divine.CircuitBreaker.Recovery
import Divine.CommentList.Editing
import Divine.CommentList.Paging
import Divine.CommentList.ReplyCounts
import Divine.ContentBlocklist.MutualMutes
import Divine.FrontendWeb.ProofMode
import Divine.Models.VideoUrl
import Divine.MuteService.Lasting
import Divine.UploadManager.Retries
import Divine.CommentList.Threads
import Divine.ProfileRepository.Profiles
import Divine.CuratedListRepository.Converter
import Divine.MediaCache.Manager
import Divine.BackgroundPublish.Bloc
import Divine.Cluster.Cleanup
import Divine.NostrClient.NormalizedUrl
